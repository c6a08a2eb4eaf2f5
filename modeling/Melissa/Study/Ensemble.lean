import Melissa.Api.Cover
import Melissa.Output.RoundTrip
import Melissa.Server.ExactlyOnce
import Melissa.Study.Distributed

/-! An ensemble of simulations on several client ranks, and what each structure of several server
ranks holds once all messages have arrived. -/

namespace Melissa

open Arrays Blocks FirstSeen Runs

section Ensemble

/-- What an ensemble of `nbSimu` simulations computes: for each simulation, time step and field
the vectors of a message, as if one process computed all of them. The elements of a field are
spread over the client ranks as `localVectSizes` says. -/
structure Ensemble (D : Type) where
  names : List String
  nbSimu : Nat
  nbClients : Nat
  nbVect : Nat
  localVectSizes : String → List Nat
  vectors : Nat → Nat → String → List (List D)
  distinct : names.Nodup
  ranks : ∀ name ∈ names, (localVectSizes name).length = nbClients
  first : ∀ name ∈ names, 0 < (localVectSizes name).getD 0 0
  steady : ∀ name ∈ names, Steady (localVectSizes name)
  count : ∀ simuId timeStep name, (vectors simuId timeStep name).length = nbVect
  sized : ∀ simuId timeStep name, ∀ vector ∈ vectors simuId timeStep name,
    vector.length = (localVectSizes name).sum

namespace Ensemble

variable {D : Type} (ensemble : Ensemble D) (nbServers : Nat)

def vectSize (name : String) : Nat := (ensemble.localVectSizes name).sum

def serverSizes (name : String) : List Nat := serverVectSize (ensemble.vectSize name) nbServers

/-- What client rank `rank` has to send to server rank `server`. -/
def piece (name : String) (server rank : Nat) : Piece (ensemble.vectSize name) where
  start := overlapStart (ensemble.localVectSizes name) (ensemble.serverSizes nbServers name)
    rank server
  count := overlap (ensemble.localVectSizes name) (ensemble.serverSizes nbServers name) rank server
  inside := by
    have client := offset_le_sum (ensemble.localVectSizes name) rank
    have client' := offset_le_sum (ensemble.localVectSizes name) (rank + 1)
    have last : (ensemble.serverSizes nbServers name).sum ≤ (ensemble.localVectSizes name).sum := by
      rcases Nat.eq_zero_or_pos nbServers with none_there | servers
      · simp [serverSizes, serverVectSize, evenSizes, none_there]
      · exact Nat.le_of_eq (evenSizes_sum _ servers)
    have server' := offset_le_sum (ensemble.serverSizes nbServers name) server
    unfold overlap overlapStart vectSize
    omega

/-- The message of a client rank to a server rank. -/
def message (server simuId timeStep : Nat) (name : String) (rank : Nat) : SimuData D :=
  let piece := ensemble.piece nbServers name server rank
  { timeStamp := timeStep, simuId := simuId, clientRank := rank, vectSize := piece.count
    fieldName := name
    data := ((ensemble.vectors simuId timeStep name).map piece.take).flatten }

/-- The messages to a server rank; where two ranks have nothing in common there is none. -/
def Sends (nbTimeSteps server : Nat) (m : SimuData D) : Prop :=
  ∃ simuId timeStep name rank, simuId < ensemble.nbSimu ∧ timeStep < nbTimeSteps ∧
    name ∈ ensemble.names ∧ rank < ensemble.nbClients ∧
    0 < (ensemble.piece nbServers name server rank).count ∧
    m = ensemble.message nbServers server simuId timeStep name rank

/-- The message between one client rank and one server rank. -/
def wholeMessage (simuId timeStep : Nat) (name : String) : SimuData D :=
  { timeStamp := timeStep, simuId := simuId, clientRank := 0
    vectSize := ensemble.vectSize name, fieldName := name
    data := (ensemble.vectors simuId timeStep name).flatten }

/-- All such messages of a field, time step after time step, the simulations of each in the given
order. -/
def wholeMessages (order : Nat → List Nat) (nbTimeSteps : Nat) (name : String) :
    List (SimuData D) :=
  (List.range nbTimeSteps).flatMap fun timeStep =>
    (order timeStep).map fun simuId => ensemble.wholeMessage simuId timeStep name

variable {ensemble nbServers}

theorem positive {name : String} (known : name ∈ ensemble.names) :
    0 < ensemble.vectSize name := by
  have first := ensemble.first name known
  have bound := offset_le_sum (ensemble.localVectSizes name) 1
  rw [offset_succ, offset_zero] at bound
  unfold vectSize
  omega

/-- The pieces of a field, server rank after server rank. -/
def distribution (servers : 0 < nbServers) {name : String} (known : name ∈ ensemble.names) :
    Distribution (ensemble.vectSize name) where
  nbServers := nbServers
  nbClients := ensemble.nbClients
  piece := ensemble.piece nbServers name
  cover := by
    have all_clients : offset (ensemble.localVectSizes name) ensemble.nbClients =
        ensemble.vectSize name :=
      offset_of_length_le (Nat.le_of_eq (ensemble.ranks name known))
    have all_servers : (ensemble.serverSizes nbServers name).sum = ensemble.vectSize name :=
      evenSizes_sum _ servers
    have own (s : Nat) : (List.range ensemble.nbClients).flatMap
          (fun r => (ensemble.piece nbServers name s r).indices) =
        List.range' (offset (ensemble.serverSizes nbServers name) s)
          ((ensemble.serverSizes nbServers name).getD s 0) := by
      have last := offset_le_sum (ensemble.serverSizes nbServers name) (s + 1)
      rw [all_servers] at last
      refine (flatMap_overlap s ensemble.nbClients).trans ?_
      rw [all_clients, Nat.min_eq_right last, offset_succ, Nat.add_sub_cancel_left]
    rw [List.flatMap_congr fun s _ => own s, flatMap_blocks,
      offset_of_length_le (by simp [serverSizes, serverVectSize]), all_servers]

section Plan

variable {name : String}

theorem aligned (servers : 0 < nbServers) (known : name ∈ ensemble.names) :
    Aligned (ensemble.localVectSizes name) (ensemble.serverSizes nbServers name) where
  clients := by
    intro none_left
    have some_element := positive known
    rw [vectSize, none_left] at some_element
    cases some_element
  servers := List.length_pos_iff.mp (by simpa [serverSizes, serverVectSize] using servers)
  clientsSteady := ensemble.steady name known
  serversSteady := steady_evenSizes _ servers
  same := evenSizes_sum _ servers

/-- The plan has a message between two ranks exactly when they have an element in common. -/
theorem mem_dataPushers_iff (servers : 0 < nbServers) (known : name ∈ ensemble.names)
    {server rank : Nat} :
    server ∈ dataPushers (commNToMInit (ensemble.localVectSizes name)
        (ensemble.serverSizes nbServers name) rank) rank ↔
      0 < (ensemble.piece nbServers name server rank).count := by
  have first := owns_zero_iff.mpr (ensemble.first name known)
  have first' : Owns (ensemble.serverSizes nbServers name) 0 0 :=
    owns_zero_iff.mpr (evenSizes_first (positive known) servers)
  rw [mem_dataPushers, commNToMInit_pairs, mem_pairs_iff (aligned servers known) first first']
  change (∃ i, _) ↔ 0 < overlap (ensemble.localVectSizes name)
    (ensemble.serverSizes nbServers name) rank server
  unfold overlap overlapStart Owns
  constructor
  · intro common
    obtain ⟨i, client, server⟩ := common
    omega
  · intro some_count
    exact ⟨_, ⟨Nat.le_max_left _ _, by omega⟩, ⟨Nat.le_max_right _ _, by omega⟩⟩

end Plan

section Messages

variable {options : Options D} {name : String}

/-- Vector `k` of a message whose vectors have the announced size. -/
theorem getD_slot [Zero D] {slots : List (List D)} {size k i : Nat}
    (uniform : ∀ slot ∈ slots, slot.length = size) (known : k < slots.length) (inside : i < size) :
    (slots.flatten.drop (k * size)).getD i 0 = (slots.getD k []).getD i 0 := by
  have slot := drop_take_slot uniform known (Nat.le_of_eq (Nat.zero_add size))
  have cell := congrArg (fun values => values.getD i 0) slot
  simpa only [Nat.add_zero, List.drop_zero, List.getD_eq_getElem?_getD, List.getElem?_take,
    if_pos inside] using cell

theorem pieces_length (piece : Piece (ensemble.vectSize name)) (simuId timeStep : Nat) :
    ∀ part ∈ (ensemble.vectors simuId timeStep name).map piece.take,
      part.length = piece.count := by
  intro part member
  obtain ⟨vector, listed, rfl⟩ := List.mem_map.mp member
  exact piece.length_take (ensemble.sized simuId timeStep name vector listed)

/-- What a message carries is the part of what the whole message carries. -/
theorem reads_message [Zero D] (vects : ensemble.nbVect = options.nbVect)
    (server simuId timeStep rank k : Nat) :
    (ensemble.piece nbServers name server rank).Reads
      ((inVectTab options (ensemble.wholeMessage simuId timeStep name)).getD k [])
      ((inVectTab options
        (ensemble.message nbServers server simuId timeStep name rank)).getD k []) := by
  intro i inside
  have room := (ensemble.piece nbServers name server rank).inside
  have count := ensemble.count simuId timeStep name
  have sized : ∀ vector ∈ ensemble.vectors simuId timeStep name,
    vector.length = ensemble.vectSize name := ensemble.sized simuId timeStep name
  have pieces := pieces_length (ensemble.piece nbServers name server rank) simuId timeStep
  by_cases known : k < options.nbVect
  · have listed : k < (ensemble.vectors simuId timeStep name).length := by omega
    have listed' : k < ((ensemble.vectors simuId timeStep name).map
        (ensemble.piece nbServers name server rank).take).length := by
      rw [List.length_map]
      exact listed
    have own : ((ensemble.vectors simuId timeStep name).map
          (ensemble.piece nbServers name server rank).take).getD k [] =
        (ensemble.piece nbServers name server rank).take
          ((ensemble.vectors simuId timeStep name).getD k []) := by
      rw [List.getD_eq_getElem _ _ listed', List.getElem_map, List.getD_eq_getElem _ _ listed]
    simp only [inVectTab, getD_map_range known, wholeMessage, message]
    rw [getD_slot sized listed (by omega), getD_slot pieces listed' inside, own,
      Piece.getD_take _ inside]
  · have past (m : SimuData D) : (inVectTab options m).getD k [] = [] :=
      List.getD_eq_default _ _ (by rw [inVectTab_length]; omega)
    rw [past, past]
    rfl

theorem length_flatten_uniform {slots : List (List D)} {size : Nat}
    (uniform : ∀ slot ∈ slots, slot.length = size) :
    slots.flatten.length = slots.length * size := by
  rw [← List.flatMap_id]
  exact flatMap_length_eq uniform

theorem sendable_message (vects : ensemble.nbVect = options.nbVect)
    (samples : options.samplingSize = (ensemble.nbSimu : Int)) {server simuId timeStep rank : Nat}
    (simu : simuId < ensemble.nbSimu) (step : timeStep < options.nbTimeSteps)
    (some_count : 0 < (ensemble.piece nbServers name server rank).count) :
    Sendable options options.samplingSize.toNat (ensemble.piece nbServers name server rank).count
      (ensemble.message nbServers server simuId timeStep name rank) where
  valid := Int.natCast_nonneg timeStep
  below := step
  inside := by
    rw [samples]
    exact simu
  size := rfl
  positive := some_count
  values := by
    have pieces := pieces_length (ensemble.piece nbServers name server rank) simuId timeStep
    rw [message, length_flatten_uniform pieces, List.length_map, ensemble.count, vects]

theorem sendable_wholeMessage (vects : ensemble.nbVect = options.nbVect)
    (known : name ∈ ensemble.names) {simuId timeStep : Nat} (simu : simuId < ensemble.nbSimu)
    (step : timeStep < options.nbTimeSteps) :
    Sendable options ensemble.nbSimu (ensemble.vectSize name)
      (ensemble.wholeMessage simuId timeStep name) where
  valid := Int.natCast_nonneg timeStep
  below := step
  inside := simu
  size := rfl
  positive := positive known
  values := by
    have whole := length_flatten_uniform (ensemble.sized simuId timeStep name)
    rw [wholeMessage, whole, ensemble.count, vects]
    rfl

theorem flatMap_range_single {α : Type} (f : Nat → List α) {i n : Nat} (inside : i < n) :
    ((List.range n).flatMap fun t => if t = i then f t else []) = f i := by
  have before (n : Nat) (past : n ≤ i) :
      ((List.range n).flatMap fun t => if t = i then f t else []) = [] := by
    rw [List.flatMap_eq_nil_iff]
    intro t member
    have below := List.mem_range.mp member
    rw [if_neg (by omega)]
  induction n with
  | zero => cases inside
  | succ n ih =>
      rw [List.range_succ, List.flatMap_append, List.flatMap_singleton]
      by_cases here : n = i
      · rw [before n (by omega), if_pos here, here, List.nil_append]
      · rw [ih (by omega), if_neg here, List.append_nil]

theorem wholeMessages_atStep (order : Nat → List Nat) {timeStep nbTimeSteps : Nat}
    (step : timeStep < nbTimeSteps) (name : String) :
    (ensemble.wholeMessages order nbTimeSteps name).filter (atStep timeStep) =
      (order timeStep).map fun simuId => ensemble.wholeMessage simuId timeStep name := by
  have own (t : Nat) : ((order t).map fun simuId =>
        ensemble.wholeMessage simuId t name).filter (atStep timeStep) =
      if t = timeStep then (order t).map fun simuId => ensemble.wholeMessage simuId t name
      else [] := by
    split
    · rename_i here
      subst here
      refine List.filter_eq_self.mpr fun m member => ?_
      obtain ⟨simuId, _, rfl⟩ := List.mem_map.mp member
      exact beq_self_eq_true (t : Int)
    · rename_i other
      refine List.filter_eq_nil_iff.mpr fun m member stamp => other ?_
      obtain ⟨simuId, _, rfl⟩ := List.mem_map.mp member
      rw [atStep, beq_iff_eq] at stamp
      exact Int.ofNat_inj.mp stamp
  rw [wholeMessages, List.filter_flatMap, List.flatMap_congr fun t _ => own t]
  exact flatMap_range_single _ step

end Messages

section Arrived

variable {options : Options D} {nbTimeSteps : Nat} {name : String}

/-- The size of the structure of a field and a client rank on a server rank. -/
def pieceSize (ensemble : Ensemble D) (nbServers server fieldId rank : Nat) : Nat :=
  (ensemble.piece nbServers (ensemble.names.getD fieldId "") server rank).count

theorem findIdx_name {fieldId : Nat} (field : ensemble.names[fieldId]? = some name) :
    ensemble.names.findIdx? (· == name) = some fieldId := by
  obtain ⟨inside, here⟩ := List.getElem?_eq_some_iff.mp field
  refine List.findIdx?_eq_some_iff_getElem.mpr ⟨inside, by simp [here], ?_⟩
  intro other before
  have apart := List.pairwise_iff_getElem.mp ensemble.distinct other fieldId
    (Nat.lt_trans before inside) inside before
  simpa [here] using apart

theorem wellFormed_sends {server : Nat} {m : SimuData D} {now : ℚ} {reply : Job D}
    (vects : ensemble.nbVect = options.nbVect)
    (samples : options.samplingSize = (ensemble.nbSimu : Int))
    (sent : ensemble.Sends nbServers options.nbTimeSteps server m)
    (known : reply.simuId < ensemble.nbSimu)
    (enough : options.nbParameters ≤ reply.parameters.length) :
    WellFormed options ⟨server, nbServers, ensemble.nbClients⟩ ensemble.names
      (ensemble.pieceSize nbServers server) ⟨now, m, reply⟩ := by
  obtain ⟨simuId, timeStep, name, rank, simu, step, listed, client, some_count, rfl⟩ := sent
  obtain ⟨fieldId, field⟩ := List.mem_iff_getElem?.mp listed
  refine ⟨⟨fieldId, findIdx_name field, ?_⟩, client, ?_, enough⟩
  · have size : ensemble.pieceSize nbServers server fieldId rank =
        (ensemble.piece nbServers name server rank).count := by
      rw [pieceSize, List.getD_eq_getElem?_getD, field, Option.getD_some]
    have sendable := sendable_message vects samples simu step some_count
    rw [← size] at sendable
    exact sendable
  · rw [samples]
    exact known

/-- A message of an ensemble is known by its field, its ranks, its simulation and its time
step. -/
theorem sends_addressed {server fieldId rank : Nat} {m : SimuData D}
    (field : ensemble.names[fieldId]? = some name)
    (sent : ensemble.Sends nbServers nbTimeSteps server m)
    (own : addressed ensemble.names fieldId rank m = true) :
    m.simuId < ensemble.nbSimu ∧ 0 < (ensemble.piece nbServers name server rank).count ∧
      m = ensemble.message nbServers server m.simuId m.timeStamp.toNat name rank := by
  obtain ⟨simuId, timeStep, name', rank', simu, step, listed, client, some_count, rfl⟩ := sent
  obtain ⟨fieldId', field'⟩ := List.mem_iff_getElem?.mp listed
  obtain ⟨rfl, rfl⟩ := (addressed_iff (findIdx_name field') fieldId rank).mp own
  rw [field'] at field
  cases field
  exact ⟨simu, some_count, rfl⟩

/-- If a structure has got the messages of all simulations at a time step and nothing else, the
first ones are those of all simulations, in some order. -/
theorem firstMessages_perm {server rank timeStep : Nat} {past : List (SimuData D)}
    (members : ∀ m, m ∈ past.filter (atStep timeStep) ↔
      m ∈ (List.range ensemble.nbSimu).map fun simuId =>
        ensemble.message nbServers server simuId timeStep name rank) :
    (firstMessages past timeStep).Perm
      ((List.range ensemble.nbSimu).map fun simuId =>
        ensemble.message nbServers server simuId timeStep name rank) := by
  have simus : ((List.range ensemble.nbSimu).map fun simuId =>
      ensemble.message nbServers server simuId timeStep name rank).map SimuData.simuId =
        List.range ensemble.nbSimu := by
    rw [List.map_map]
    exact List.map_id' _
  have once : ((List.range ensemble.nbSimu).map fun simuId =>
      ensemble.message nbServers server simuId timeStep name rank).Nodup := by
    apply List.Nodup.of_map SimuData.simuId
    rw [simus]
    exact List.nodup_range
  refine (List.perm_ext_iff_of_nodup (nodup_firsts SimuData.simuId _) once).mpr ?_
  intro m
  rw [← members]
  apply mem_firsts_iff
  intro a left b right same
  obtain ⟨simu, _, rfl⟩ := List.mem_map.mp ((members a).mp left)
  obtain ⟨simu', _, rfl⟩ := List.mem_map.mp ((members b).mp right)
  have equal : simu = simu' := same
  rw [equal]

/-- Once everything has arrived, a structure has got the messages of all simulations. -/
theorem firstMessages_perm_all {server fieldId rank timeStep : Nat}
    {arrivals : List (Arrival D)} (field : ensemble.names[fieldId]? = some name)
    (client : rank < ensemble.nbClients) (step : timeStep < nbTimeSteps)
    (some_count : 0 < (ensemble.piece nbServers name server rank).count)
    (only : ∀ m ∈ arrivals.map Arrival.m, ensemble.Sends nbServers nbTimeSteps server m)
    (all : ∀ m, ensemble.Sends nbServers nbTimeSteps server m → m ∈ arrivals.map Arrival.m) :
    (firstMessages (messagesOf ensemble.names fieldId rank arrivals) timeStep).Perm
      ((List.range ensemble.nbSimu).map fun simuId =>
        ensemble.message nbServers server simuId timeStep name rank) := by
  apply firstMessages_perm
  intro m
  simp only [messagesOf, List.mem_filter, List.mem_map, List.mem_range]
  constructor
  · intro kept
    obtain ⟨⟨arrived, own⟩, stamp⟩ := kept
    obtain ⟨simu, _, same⟩ := sends_addressed field (only m (List.mem_map.mpr arrived)) own
    have here : m.timeStamp.toNat = timeStep := by
      rw [atStep, beq_iff_eq] at stamp
      omega
    rw [here] at same
    exact ⟨m.simuId, simu, same.symm⟩
  · intro listed
    obtain ⟨simuId, simu, rfl⟩ := listed
    refine ⟨⟨List.mem_map.mp (all _ ?_), ?_⟩, ?_⟩
    · exact ⟨simuId, timeStep, name, rank, simu, step, List.mem_of_getElem? field, client,
        some_count, rfl⟩
    · exact (addressed_iff (findIdx_name field) fieldId rank).mpr ⟨rfl, rfl⟩
    · exact beq_self_eq_true (timeStep : Int)

end Arrived

end Ensemble

end Ensemble

section Held

open Ensemble

section Anyhow

variable {D : Type} [Zero D] [Add D] [Sub D] [Mul D] [Div D] [NatCast D] [IntCast D]
  [Pow D ℕ] [LT D] [DecidableLT D] [LE D] [DecidableLE D] [Libm D] {ensemble : Ensemble D}
  {nbServers : Nat} {options : Options D} {name : String}

/-- The statistics of the whole field are computed from the whole messages. -/
theorem computeAll_wholeMessages (vects : ensemble.nbVect = options.nbVect)
    (known : name ∈ ensemble.names) {order : Nat → List Nat}
    (listed : ∀ t, ∀ simuId ∈ order t, simuId < ensemble.nbSimu) :
    ∃ whole, computeAll options (melissaInitData options emptyData (ensemble.vectSize name))
        (ensemble.wholeMessages order options.nbTimeSteps name) = some whole ∧
      whole.vectSize = ensemble.vectSize name ∧
      ∀ t < options.nbTimeSteps, stepStats whole t =
        (order t).foldl (fun stats simuId =>
            updateStep options (ensemble.vectSize name) simuId
              (inVectTab options (ensemble.wholeMessage simuId t name)) stats)
          (stepStats (melissaInitData options emptyData (ensemble.vectSize name)) t) := by
  have start := melissaInitData_eq options (positive known)
  have sendable : ∀ m ∈ ensemble.wholeMessages order options.nbTimeSteps name,
      Sendable options ensemble.nbSimu (ensemble.vectSize name) m := by
    intro m member
    obtain ⟨timeStep, step, inner⟩ := List.mem_flatMap.mp member
    obtain ⟨simuId, simu, rfl⟩ := List.mem_map.mp inner
    exact sendable_wholeMessage vects known (listed timeStep simuId simu) (List.mem_range.mp step)
  obtain ⟨whole, computed, size, stats⟩ := computeAll_eachStep sendable
    (melissaInitData options emptyData (ensemble.vectSize name)) (by rw [start]) (by rw [start])
  refine ⟨whole, computed, size, ?_⟩
  intro t step
  rw [stats, wholeMessages_atStep order step, List.foldl_map]
  rfl

/-- What a structure holds: nothing where the two ranks have no element in common, else the
statistics of the first messages. -/
theorem entry_arrived {server fieldId rank t : Nat} {commData : CommData}
    {arrivals : List (Arrival D)} {srv : Server D}
    (clients : commData.clientCommSize = ensemble.nbClients)
    (inv : AllRecords options commData ensemble.names (ensemble.pieceSize nbServers server)
      arrivals srv)
    (only : ∀ m ∈ arrivals.map Arrival.m, ensemble.Sends nbServers options.nbTimeSteps server m)
    (field : ensemble.names[fieldId]? = some name) (client : rank < ensemble.nbClients)
    (step : t < options.nbTimeSteps)
    (some_first : 0 < (ensemble.piece nbServers name server rank).count →
      firstMessages (messagesOf ensemble.names fieldId rank arrivals) t ≠ []) :
    ∃ data, entryOf srv.fields fieldId rank = some data ∧
      data.vectSize = (ensemble.piece nbServers name server rank).count ∧
      (0 < (ensemble.piece nbServers name server rank).count → stepStats data t =
        (firstMessages (messagesOf ensemble.names fieldId rank arrivals) t).foldl
          (fun stats m => updateStep options (ensemble.piece nbServers name server rank).count
            m.simuId (inVectTab options m) stats)
          (stepStats (melissaInitData options emptyData
            (ensemble.piece nbServers name server rank).count) t)) := by
  obtain ⟨inside, _⟩ := List.getElem?_eq_some_iff.mp field
  obtain ⟨data, entry, history⟩ := inv.entries fieldId rank inside (by omega)
  refine ⟨data, entry, ?_⟩
  rcases Nat.eq_zero_or_pos (ensemble.piece nbServers name server rank).count
    with none_count | some_count
  · have nothing : messagesOf ensemble.names fieldId rank arrivals = [] := by
      rw [List.eq_nil_iff_forall_not_mem]
      intro m member
      obtain ⟨arrived, own⟩ := List.mem_filter.mp member
      have count := (sends_addressed field (only m arrived) own).2.1
      omega
    rw [if_pos nothing] at history
    subst history
    exact ⟨none_count.symm, fun some_count => absurd some_count (by omega)⟩
  · have something : ¬ messagesOf ensemble.names fieldId rank arrivals = [] := by
      intro nothing
      rw [nothing] at some_first
      exact some_first some_count rfl
    rw [if_neg something] at history
    have size : ensemble.pieceSize nbServers server fieldId rank =
        (ensemble.piece nbServers name server rank).count := by
      rw [pieceSize, List.getD_eq_getElem?_getD, field, Option.getD_some]
    refine ⟨history.size.trans size, fun _ => ?_⟩
    rw [history.stats t step, size]
    rfl

/-- The parts of the messages of some simulations, in order, give the part of the statistics. -/
theorem part_whole (vects : ensemble.nbVect = options.nbVect) {server rank t : Nat}
    (some_count : 0 < (ensemble.piece nbServers name server rank).count) {order : List Nat}
    {whole : MelissaData D}
    (stats : stepStats whole t = order.foldl (fun stats simuId =>
        updateStep options (ensemble.vectSize name) simuId
          (inVectTab options (ensemble.wholeMessage simuId t name)) stats)
      (stepStats (melissaInitData options emptyData (ensemble.vectSize name)) t)) :
    (stepStats whole t).part (ensemble.piece nbServers name server rank) =
      (order.map fun simuId => ensemble.message nbServers server simuId t name rank).foldl
        (fun stats m => updateStep options (ensemble.piece nbServers name server rank).count
          m.simuId (inVectTab options m) stats)
        (stepStats (melissaInitData options emptyData
          (ensemble.piece nbServers name server rank).count) t) := by
  have reads : ∀ simuId ∈ order, ∀ k,
      (ensemble.piece nbServers name server rank).Reads
        ((inVectTab options (ensemble.wholeMessage simuId t name)).getD k [])
        ((inVectTab options (ensemble.message nbServers server simuId t name rank)).getD k []) :=
    fun simuId _ => reads_message vects server simuId t rank
  have parts := part_foldl_updateStep reads options (fun simuId => simuId)
    (stepStats (melissaInitData options emptyData (ensemble.vectSize name)) t)
  rw [← stats, part_melissaInitData _ options some_count] at parts
  rw [parts, List.foldl_map]
  rfl

/-- A structure whose first messages came in the given order holds its part exactly. -/
theorem holdsPart_ordered (options : Options D) (vects : ensemble.nbVect = options.nbVect)
    {server fieldId rank t : Nat} {commData : CommData} {arrivals : List (Arrival D)}
    {srv : Server D} (clients : commData.clientCommSize = ensemble.nbClients)
    (inv : AllRecords options commData ensemble.names (ensemble.pieceSize nbServers server)
      arrivals srv)
    (only : ∀ m ∈ arrivals.map Arrival.m, ensemble.Sends nbServers options.nbTimeSteps server m)
    (field : ensemble.names[fieldId]? = some name) (client : rank < ensemble.nbClients)
    (step : t < options.nbTimeSteps) {order : List Nat} (some_simu : order ≠ [])
    (ordered : 0 < (ensemble.piece nbServers name server rank).count →
      (firstMessages (messagesOf ensemble.names fieldId rank arrivals) t).map SimuData.simuId =
        order)
    {whole : MelissaData D}
    (stats : stepStats whole t = order.foldl (fun stats simuId =>
        updateStep options (ensemble.vectSize name) simuId
          (inVectTab options (ensemble.wholeMessage simuId t name)) stats)
      (stepStats (melissaInitData options emptyData (ensemble.vectSize name)) t)) :
    ∃ data, entryOf srv.fields fieldId rank = some data ∧
      HoldsPart (fun stats => stats) (ensemble.piece nbServers name server rank) t whole data := by
  obtain ⟨data, entry, size, held⟩ := entry_arrived clients inv only field client step
    fun some_count nothing => some_simu (by rw [← ordered some_count, nothing]; rfl)
  refine ⟨data, entry, size, fun some_count => ?_⟩
  have first : firstMessages (messagesOf ensemble.names fieldId rank arrivals) t =
      order.map fun simuId => ensemble.message nbServers server simuId t name rank := by
    rw [← ordered some_count, List.map_map]
    refine (List.map_id _).symm.trans (List.map_congr_left ?_)
    intro m member
    obtain ⟨present, stamp⟩ := List.mem_filter.mp (mem_of_mem_firsts SimuData.simuId member)
    obtain ⟨arrived, own⟩ := List.mem_filter.mp present
    have same := (sends_addressed field (only m arrived) own).2.2
    have here : m.timeStamp.toNat = t := by
      rw [atStep, beq_iff_eq] at stamp
      omega
    rw [here] at same
    exact same
  rw [held some_count, first, part_whole vects some_count stats]

end Anyhow

section Exact

variable {K : Type} [Field K] [LinearOrder K] [IsStrictOrderedRing K] [Libm K]
  {ensemble : Ensemble K} {nbServers : Nat} {name : String}

/-- Once everything has arrived, each structure holds its part of the values of the whole field,
whatever the order. -/
theorem holdsPart_arrived (options : Options K) (vects : ensemble.nbVect = options.nbVect)
    (simulations : 0 < ensemble.nbSimu) {server fieldId rank t : Nat} {commData : CommData}
    {arrivals : List (Arrival K)} {srv : Server K}
    (clients : commData.clientCommSize = ensemble.nbClients)
    (inv : AllRecords options commData ensemble.names (ensemble.pieceSize nbServers server)
      arrivals srv)
    (only : ∀ m ∈ arrivals.map Arrival.m, ensemble.Sends nbServers options.nbTimeSteps server m)
    (all : ∀ m, ensemble.Sends nbServers options.nbTimeSteps server m →
      m ∈ arrivals.map Arrival.m)
    (field : ensemble.names[fieldId]? = some name) (client : rank < ensemble.nbClients)
    (step : t < options.nbTimeSteps) {whole : MelissaData K}
    (stats : stepStats whole t = (List.range ensemble.nbSimu).foldl (fun stats simuId =>
        updateStep options (ensemble.vectSize name) simuId
          (inVectTab options (ensemble.wholeMessage simuId t name)) stats)
      (stepStats (melissaInitData options emptyData (ensemble.vectSize name)) t)) :
    ∃ data, entryOf srv.fields fieldId rank = some data ∧
      HoldsPart values (ensemble.piece nbServers name server rank) t whole data := by
  have perm (some_count : 0 < (ensemble.piece nbServers name server rank).count) :=
    firstMessages_perm_all field client step some_count only all
  obtain ⟨data, entry, size, held⟩ := entry_arrived clients inv only field client step
    fun some_count nothing => by
      have length := (perm some_count).length_eq
      rw [nothing, List.length_nil, List.length_map, List.length_range] at length
      omega
  refine ⟨data, entry, size, fun some_count => ?_⟩
  rw [held some_count, part_whole vects some_count stats]
  exact values_foldl_perm options _ SimuData.simuId (inVectTab options) (perm some_count) _

end Exact

end Held

end Melissa
