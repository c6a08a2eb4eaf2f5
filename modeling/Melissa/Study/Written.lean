import Melissa.Study.Ensemble

/-! The files written at the end of a study: whatever the numbers of client and server ranks, and
however the messages came, they hold the statistics of the whole fields. -/

namespace Melissa

open Arrays Blocks Runs

section Study

variable {D : Type}

/-- What one server rank may find to do in a study: the messages that are sent to it, each as often
as it is sent again, and messages of the launcher about known simulations, but no DROP, which the
server does not survive. -/
def Known (sends : SimuData D → Prop) (nbSimu nbParameters : Nat) : Event D → Prop
  | .data _ m reply => sends m ∧ reply.simuId < nbSimu ∧ nbParameters ≤ reply.parameters.length
  | .launcher (.job job) => job.simuId < nbSimu ∧ nbParameters ≤ job.parameters.length
  | .launcher (.drop _ _) => False
  | _ => True

/-- Every message that is sent is among the events. -/
def Arrived (sends : SimuData D → Prop) (events : List (Event D)) : Prop :=
  ∀ m, sends m → ∃ now reply, .data now m reply ∈ events

theorem mem_arrivalsOf {events : List (Event D)} {m : SimuData D} :
    m ∈ (arrivalsOf events).map Arrival.m ↔ ∃ now reply, .data now m reply ∈ events := by
  simp only [arrivalsOf, List.mem_map, List.mem_filterMap]
  constructor
  · intro arrived
    obtain ⟨arrival, ⟨event, member, here⟩, rfl⟩ := arrived
    cases event with
    | data now m reply =>
        cases here
        exact ⟨now, reply, member⟩
    | launcher msg => cases here
    | timeouts now => cases here
  · intro arrived
    obtain ⟨now, reply, member⟩ := arrived
    exact ⟨⟨now, m, reply⟩, ⟨_, member, rfl⟩, rfl⟩

/-- The messages to a server rank, simulation after simulation. -/
def Ensemble.sent (ensemble : Ensemble D) (nbServers nbTimeSteps server : Nat) :
    List (SimuData D) :=
  (List.range ensemble.nbSimu).flatMap fun simuId =>
    (List.range nbTimeSteps).flatMap fun timeStep =>
      ensemble.names.flatMap fun name =>
        ((List.range ensemble.nbClients).filter fun rank =>
          0 < (ensemble.piece nbServers name server rank).count).map fun rank =>
            ensemble.message nbServers server simuId timeStep name rank

theorem Ensemble.mem_sent {ensemble : Ensemble D} {nbServers nbTimeSteps server : Nat}
    {m : SimuData D} : m ∈ ensemble.sent nbServers nbTimeSteps server ↔
      ensemble.Sends nbServers nbTimeSteps server m := by
  simp only [sent, List.mem_flatMap, List.mem_map, List.mem_filter, List.mem_range,
    decide_eq_true_eq]
  constructor
  · intro listed
    obtain ⟨simuId, simu, timeStep, step, name, known, rank, ⟨client, some_count⟩, rfl⟩ := listed
    exact ⟨simuId, timeStep, name, rank, simu, step, known, client, some_count, rfl⟩
  · intro sends
    obtain ⟨simuId, timeStep, name, rank, simu, step, known, client, some_count, rfl⟩ := sends
    exact ⟨simuId, simu, timeStep, step, name, known, rank, ⟨client, some_count⟩, rfl⟩

/-- The run in which each of them arrives once, every answer of the launcher being the same. -/
def Ensemble.orderly (ensemble : Ensemble D) (nbServers nbTimeSteps : Nat) (reply : Job D)
    (server : Nat) : List (Event D) :=
  (ensemble.sent nbServers nbTimeSteps server).map fun m => .data 0 m reply

theorem Ensemble.orderly_known {ensemble : Ensemble D} {nbServers nbTimeSteps nbParameters : Nat}
    {reply : Job D} (known : reply.simuId < ensemble.nbSimu)
    (enough : nbParameters ≤ reply.parameters.length) (server : Nat) :
    ∀ event ∈ ensemble.orderly nbServers nbTimeSteps reply server,
      Known (ensemble.Sends nbServers nbTimeSteps server) ensemble.nbSimu nbParameters event := by
  intro event member
  obtain ⟨m, listed, rfl⟩ := List.mem_map.mp member
  exact ⟨mem_sent.mp listed, known, enough⟩

theorem Ensemble.orderly_arrived {ensemble : Ensemble D} {nbServers nbTimeSteps : Nat}
    (reply : Job D) (server : Nat) :
    Arrived (ensemble.Sends nbServers nbTimeSteps server)
      (ensemble.orderly nbServers nbTimeSteps reply server) := by
  intro m sends
  exact ⟨0, reply, List.mem_map.mpr ⟨m, mem_sent.mpr sends, rfl⟩⟩

theorem eventFormed_of_known {ensemble : Ensemble D} {nbServers server : Nat}
    {options : Options D} {event : Event D} (vects : ensemble.nbVect = options.nbVect)
    (samples : options.samplingSize = (ensemble.nbSimu : Int))
    (known : Known (ensemble.Sends nbServers options.nbTimeSteps server) ensemble.nbSimu
      options.nbParameters event) :
    EventFormed options ⟨server, nbServers, ensemble.nbClients⟩ ensemble.names
      (ensemble.pieceSize nbServers server) event := by
  have sample : options.samplingSize.toNat = ensemble.nbSimu := by omega
  cases event with
  | data now m reply => exact Ensemble.wellFormed_sends vects samples known.1 known.2.1 known.2.2
  | launcher msg =>
      cases msg with
      | job job => exact ⟨by rw [sample]; exact known.1, known.2⟩
      | drop simuId jobId => exact absurd known id
      | hello => trivial
      | alive => trivial
      | options => trivial
      | unknown messageType => trivial
  | timeouts now => trivial

/-- The structures of a field on a server rank. -/
def statsOf (server : Server D) (fieldId : Nat) : List (MelissaData D) :=
  match server.fields[fieldId]? with
  | some field => field.statsData
  | none => []

theorem statsOf_eq {server : Server D} {fieldId nbClients : Nat}
    {structures : Nat → MelissaData D}
    (inside : ∀ rank < nbClients, entryOf server.fields fieldId rank = some (structures rank))
    (outside : entryOf server.fields fieldId nbClients = none)
    (known : fieldId < server.fields.length) :
    statsOf server fieldId = (List.range nbClients).map structures := by
  have found := List.getElem?_eq_getElem known
  rw [statsOf, found]
  simp only [entryOf, found, Option.bind_some] at inside outside
  apply List.ext_getElem?
  intro rank
  rw [List.getElem?_map]
  rcases Nat.lt_or_ge rank nbClients with client | past
  · rw [inside rank client, List.getElem?_range client, Option.map_some]
  · have length := List.getElem?_eq_none_iff.mp outside
    rw [List.getElem?_eq_none (Nat.le_trans length past), List.getElem?_eq_none (by simpa),
      Option.map_none]

end Study

section Gathered

variable {D : Type} [Zero D] [Add D] [Sub D] [Mul D] [Div D] [NatCast D] [IntCast D]
  [Pow D ℕ] [LT D] [DecidableLT D] [LE D] [DecidableLE D] [Libm D] {options : Options D}
  {ensemble : Ensemble D} {nbServers : Nat}

theorem statsAllocated_computeAll {messages : List (SimuData D)} {data data' : MelissaData D}
    (allocated : StatsAllocated options data)
    (computed : computeAll options data messages = some data') :
    StatsAllocated options data' := by
  induction messages generalizing data with
  | nil =>
      cases computed
      exact allocated
  | cons m rest ih =>
      rw [computeAll, List.foldlM_cons, Option.bind_eq_bind, Option.bind_eq_some_iff] at computed
      obtain ⟨next, done, onward⟩ := computed
      exact ih (statsAllocated_computeStats allocated done) onward

/-- These files, written by all server ranks together, are those of one structure that has computed
the whole messages, the simulations of each time step in the given order. -/
def WritesWhole (stats : List (OutputStat D)) (options : Options D) (ensemble : Ensemble D)
    (order : String → Nat → List Nat) (nbServers : Nat) (servers : Nat → Server D) : Prop :=
  ∀ fieldId name, ensemble.names[fieldId]? = some name →
    ∃ whole, computeAll options (melissaInitData options emptyData (ensemble.vectSize name))
        (ensemble.wholeMessages (order name) options.nbTimeSteps name) = some whole ∧
      ∀ stat ∈ stats, ∀ t < options.nbTimeSteps, ∀ stale stale',
        ∃ call, writeStatRanks stale options name
            ((List.range nbServers).map fun s => statsOf (servers s) fieldId) stat t = some call ∧
          writeStatRanks stale' options name [[whole]] stat t = some call

/-- Each server rank comes through its run, and each of its structures is a record. -/
theorem server_arrived (nbServers server : Nat) (events : List (Event D))
    (accepted : rejected options = false) (vects : ensemble.nbVect = options.nbVect)
    (samples : options.samplingSize = (ensemble.nbSimu : Int))
    (known : ∀ event ∈ events, Known (ensemble.Sends nbServers options.nbTimeSteps server)
      ensemble.nbSimu options.nbParameters event) :
    ∃ srv, run (step noRestore) (freshServer options ⟨server, nbServers, ensemble.nbClients⟩
        ensemble.names) events = some srv ∧
      AllRecords options.firstStart ⟨server, nbServers, ensemble.nbClients⟩ ensemble.names
        (ensemble.pieceSize nbServers server) (arrivalsOf events) srv ∧
      ∀ m ∈ (arrivalsOf events).map Arrival.m,
        ensemble.Sends nbServers options.nbTimeSteps server m := by
  obtain ⟨srv, reached, inv⟩ := allRecords_events options _ ensemble.names _ accepted events
    fun event member => eventFormed_firstStart (eventFormed_of_known vects samples
      (known event member))
  refine ⟨srv, reached, inv, ?_⟩
  intro m arrived
  obtain ⟨now, reply, member⟩ := mem_arrivalsOf.mp arrived
  exact (known _ member).1

end Gathered

section Placed

variable {D : Type}

/-- The server rank has the fields of the study and a structure for each client rank. -/
structure Placed (ensemble : Ensemble D) (server : Server D) : Prop where
  names : server.fields.map MelissaField.name = ensemble.names
  places : ∀ fieldId rank, (entryOf server.fields fieldId rank).isSome =
    (entryOf (ensemble.names.map (emptyField (D := D) ensemble.nbClients)) fieldId rank).isSome

theorem placed_freshServer (ensemble : Ensemble D) (options : Options D) (nbServers s : Nat) :
    Placed ensemble
      (freshServer options ⟨s, nbServers, ensemble.nbClients⟩ ensemble.names) :=
  ⟨by simp [freshServer, startServer, emptyField, Function.comp_def], fun _ _ => rfl⟩

theorem placed_sameStudy {ensemble : Ensemble D} {server server' : Server D}
    (placed : Placed ensemble server) (same : SameStudy server server') :
    Placed ensemble server' :=
  ⟨same.names.trans placed.names,
    fun fieldId rank => (same.entries fieldId rank).trans (placed.places fieldId rank)⟩

theorem placed_sampleFree {ensemble : Ensemble D} {server plain : Server D}
    (same : sampleFree server = sampleFree plain) (placed : Placed ensemble plain) :
    Placed ensemble server := by
  have names (server : Server D) : (sampleFree server).fields.map MelissaField.name =
      server.fields.map MelissaField.name := by
    simp only [sampleFree, List.map_map, Function.comp_def]
  have places (server : Server D) (fieldId rank : Nat) :
      (entryOf (sampleFree server).fields fieldId rank).isSome =
        (entryOf server.fields fieldId rank).isSome := by
    rw [entryOf_sampleFree, Option.isSome_map]
  constructor
  · rw [← names, same, names, placed.names]
  · intro fieldId rank
    rw [← places, same, places, placed.places]

/-- What a structure holds it also holds after the silences of the launcher, but for the
quantiles. -/
theorem holdsPart_sampleFree {β : Type} {view : StepStats D → β} {server plain : Server D}
    {fieldId rank t n : Nat} {piece : Piece n} {whole : MelissaData D}
    (hides : ∀ stats stats', quantileFree stats = quantileFree stats' → view stats = view stats')
    (same : sampleFree server = sampleFree plain)
    (held : ∃ data, entryOf plain.fields fieldId rank = some data ∧
      HoldsPart view piece t whole data) :
    ∃ data, entryOf server.fields fieldId rank = some data ∧
      HoldsPart view piece t whole data := by
  obtain ⟨data', entry', size, part⟩ := held
  obtain ⟨data, entry, alike⟩ := entry_of_sampleFree same entry'
  obtain ⟨_, vectSize, _⟩ := withoutQuantiles_parts alike
  refine ⟨data, entry, vectSize.trans size, fun positive => ?_⟩
  have through (data : MelissaData D) :
      quantileFree (stepStats data t) = stepStats (withoutQuantiles data) t := rfl
  have stats : quantileFree (stepStats data t) = quantileFree (stepStats data' t) := by
    rw [through, alike, ← through]
  exact (hides _ _ stats).trans (part positive)

end Placed

section Held

variable {D : Type} [Zero D] [Div D] [NatCast D] [Pow D ℕ] [LT D] [DecidableLT D] [DecidableEq D]
  [Libm D] {options : Options D} {ensemble : Ensemble D} {nbServers : Nat}

/-- If each structure holds its part, the files of a field are those of the whole. -/
theorem writeStatRanks_whole {β : Type} {view : StepStats D → β}
    {formatG : D → String} {fieldId t : Nat} {name : String} {servers : Nat → Server D}
    {whole : MelissaData D} {stat : OutputStat D} (some_server : 0 < nbServers)
    (field : ensemble.names[fieldId]? = some name)
    (placed : ∀ s < nbServers, Placed ensemble (servers s))
    (allocated : StatsAllocated options whole) (size : whole.vectSize = ensemble.vectSize name)
    (parts : stat.source.Parts view) (requested : stat ∈ outputStats formatG options)
    (step : t < options.nbTimeSteps)
    (held : ∀ s < nbServers, ∀ rank < ensemble.nbClients,
      ∃ data, entryOf (servers s).fields fieldId rank = some data ∧
        HoldsPart view (ensemble.piece nbServers name s rank) t whole data)
    (stale stale' : Nat → StaleBuffer D) :
    ∃ call, writeStatRanks stale options name
        ((List.range nbServers).map fun s => statsOf (servers s) fieldId) stat t = some call ∧
      writeStatRanks stale' options name [[whole]] stat t = some call := by
  have listed := List.mem_of_getElem? field
  obtain ⟨known, _⟩ := List.getElem?_eq_some_iff.mp field
  let structures (s rank : Nat) : MelissaData D :=
    (entryOf (servers s).fields fieldId rank).getD emptyData
  have ranks : (List.range nbServers).map (fun s => statsOf (servers s) fieldId) =
      (List.range nbServers).map fun s =>
        (List.range ensemble.nbClients).map (structures s) := by
    apply List.map_congr_left
    intro s member
    have study := placed s (List.mem_range.mp member)
    apply statsOf_eq
    · intro rank client
      obtain ⟨data, entry, _⟩ := held s (List.mem_range.mp member) rank client
      simp only [structures, entry, Option.getD_some]
    · have place := study.places fieldId ensemble.nbClients
      rw [entryOf_emptyFields, if_neg (by simp)] at place
      simpa using place
    · rw [← List.length_map (f := MelissaField.name), study.names]
      exact known
  have copies : stat.source.Copies t whole :=
    copies_of_allocated allocated (by rw [size]; exact Ensemble.positive listed) requested step
  rw [ranks]
  refine writeStatRanks_eq parts (Ensemble.distribution some_server listed) size structures ?_
    copies stale stale' options name
  intro s server rank client
  obtain ⟨data, entry, holds⟩ := held s server rank client
  simp only [structures, entry, Option.getD_some]
  exact holds

end Held

section Anyhow

variable {D : Type} [Zero D] [Add D] [Sub D] [Mul D] [Div D] [NatCast D] [IntCast D]
  [Pow D ℕ] [LT D] [DecidableLT D] [LE D] [DecidableLE D] [Libm D] {options : Options D}
  {ensemble : Ensemble D} {nbServers : Nat}

/-- The runs of all server ranks. -/
theorem servers_arrived {events : Nat → List (Event D)} (accepted : rejected options = false)
    (vects : ensemble.nbVect = options.nbVect)
    (samples : options.samplingSize = (ensemble.nbSimu : Int))
    (known : ∀ s < nbServers, ∀ event ∈ events s,
      Known (ensemble.Sends nbServers options.nbTimeSteps s) ensemble.nbSimu options.nbParameters
        event) :
    ∃ servers : Nat → Server D, ∀ s < nbServers,
      run (step noRestore) (freshServer options ⟨s, nbServers, ensemble.nbClients⟩
        ensemble.names) (events s) = some (servers s) ∧
      AllRecords options.firstStart ⟨s, nbServers, ensemble.nbClients⟩ ensemble.names
        (ensemble.pieceSize nbServers s) (arrivalsOf (events s)) (servers s) ∧
      ∀ m ∈ (arrivalsOf (events s)).map Arrival.m,
        ensemble.Sends nbServers options.nbTimeSteps s m := by
  have each (s : Nat) : ∃ srv, s < nbServers →
      run (step noRestore) (freshServer options ⟨s, nbServers, ensemble.nbClients⟩
        ensemble.names) (events s) = some srv ∧
      AllRecords options.firstStart ⟨s, nbServers, ensemble.nbClients⟩ ensemble.names
        (ensemble.pieceSize nbServers s) (arrivalsOf (events s)) srv ∧
      ∀ m ∈ (arrivalsOf (events s)).map Arrival.m,
        ensemble.Sends nbServers options.nbTimeSteps s m := by
    by_cases server : s < nbServers
    · obtain ⟨srv, arrived⟩ :=
        server_arrived nbServers s (events s) accepted vects samples (known s server)
      exact ⟨srv, fun _ => arrived⟩
    · exact ⟨freshServer options ⟨s, nbServers, ensemble.nbClients⟩ ensemble.names,
        fun server' => absurd server' server⟩
  choose servers arrived using each
  exact ⟨servers, arrived⟩

/-- The same ranks with the silences of the launcher. -/
theorem servers_resampled {rounds : Nat → List (Round D)} {plains : Nat → Server D}
    (accepted : rejected options = false)
    (complete : ∀ s < nbServers, Meets (roundStep noRestore) CompleteSample
      (freshServer options ⟨s, nbServers, ensemble.nbClients⟩ ensemble.names) (rounds s))
    (reached : ∀ s < nbServers, run (step noRestore)
      (freshServer options ⟨s, nbServers, ensemble.nbClients⟩ ensemble.names)
      (eventsOf (rounds s)) = some (plains s)) :
    ∃ servers : Nat → Server D, ∀ s < nbServers,
      run (roundStep noRestore) (freshServer options ⟨s, nbServers, ensemble.nbClients⟩
        ensemble.names) (rounds s) = some (servers s) ∧
      sampleFree (servers s) = sampleFree (plains s) := by
  have each (s : Nat) : ∃ srv, s < nbServers →
      run (roundStep noRestore) (freshServer options ⟨s, nbServers, ensemble.nbClients⟩
        ensemble.names) (rounds s) = some srv ∧ sampleFree srv = sampleFree (plains s) := by
    by_cases server : s < nbServers
    · obtain ⟨_, srv, done, same⟩ := run_sampleFree (wholeSample_freshServer accepted _ _)
        (complete s server) (reached s server)
      exact ⟨srv, fun _ => ⟨done, same⟩⟩
    · exact ⟨plains s, fun server' => absurd server' server⟩
  choose servers resampled using each
  exact ⟨servers, resampled⟩

/-- Every structure of a field with something to receive has got the first messages of each time
step in the given order of the simulations. -/
def InOrder (ensemble : Ensemble D) (nbServers nbTimeSteps : Nat) (order : String → Nat → List Nat)
    (events : Nat → List (Event D)) : Prop :=
  ∀ s < nbServers, ∀ fieldId name, ensemble.names[fieldId]? = some name →
    ∀ rank < ensemble.nbClients, 0 < (ensemble.piece nbServers name s rank).count →
      ∀ t < nbTimeSteps, (firstMessages (messagesOf ensemble.names fieldId rank
        (arrivalsOf (events s))) t).map SimuData.simuId = order name t

/-- The statistics of a whole field at a time step, the simulations in the given order. -/
def WholeStats (options : Options D) (ensemble : Ensemble D) (order : Nat → List Nat)
    (name : String) (t : Nat) (whole : MelissaData D) : Prop :=
  stepStats whole t = (order t).foldl (fun stats simuId =>
      updateStep options (ensemble.vectSize name) simuId
        (inVectTab options (ensemble.wholeMessage simuId t name)) stats)
    (stepStats (melissaInitData options emptyData (ensemble.vectSize name)) t)

/-- Ranks whose structures hold their parts of the whole write its files. -/
theorem writesWhole_of_held {β : Type} {view : StepStats D → β} [DecidableEq D]
    {formatG : D → String} {stats : List (OutputStat D)} {order : String → Nat → List Nat}
    {servers : Nat → Server D} (vects : ensemble.nbVect = options.nbVect)
    (some_server : 0 < nbServers) (placed : ∀ s < nbServers, Placed ensemble (servers s))
    (requested : ∀ stat ∈ stats, stat ∈ outputStats formatG options)
    (parts : ∀ stat ∈ stats, stat.source.Parts view)
    (listed : ∀ name t, ∀ simuId ∈ order name t, simuId < ensemble.nbSimu)
    (held : ∀ s < nbServers, ∀ fieldId name, ensemble.names[fieldId]? = some name →
      ∀ rank < ensemble.nbClients, ∀ t < options.nbTimeSteps, ∀ whole,
        WholeStats options ensemble (order name) name t whole →
          ∃ data, entryOf (servers s).fields fieldId rank = some data ∧
            HoldsPart view (ensemble.piece nbServers name s rank) t whole data) :
    WritesWhole stats options ensemble order nbServers servers := by
  intro fieldId name field
  obtain ⟨whole, computed, size, wholeStats⟩ :=
    computeAll_wholeMessages vects (List.mem_of_getElem? field) (listed name)
  refine ⟨whole, computed, ?_⟩
  intro stat member t step stale stale'
  have allocated := statsAllocated_computeAll
    (statsAllocated_melissaInitData options (ensemble.vectSize name)) computed
  exact writeStatRanks_whole some_server field placed allocated size (parts stat member)
    (requested stat member) step
    (fun s server rank client =>
      held s server fieldId name field rank client t step whole (wholeStats t step)) stale stale'

/-- In any arithmetic: if every structure has seen the simulations of a time step in one order,
all files are those of the whole. -/
theorem ensemble_writesWhole_inOrder [DecidableEq D] (formatG : D → String)
    {events : Nat → List (Event D)} {order : String → Nat → List Nat}
    (accepted : rejected options = false) (vects : ensemble.nbVect = options.nbVect)
    (samples : options.samplingSize = (ensemble.nbSimu : Int)) (some_server : 0 < nbServers)
    (known : ∀ s < nbServers, ∀ event ∈ events s,
      Known (ensemble.Sends nbServers options.nbTimeSteps s) ensemble.nbSimu options.nbParameters
        event)
    (listed : ∀ name t, ∀ simuId ∈ order name t, simuId < ensemble.nbSimu)
    (some_simu : ∀ name t, order name t ≠ [])
    (ordered : InOrder ensemble nbServers options.nbTimeSteps order events) :
    ∃ servers : Nat → Server D,
      (∀ s < nbServers, run (step noRestore) (freshServer options
        ⟨s, nbServers, ensemble.nbClients⟩ ensemble.names) (events s) = some (servers s)) ∧
      WritesWhole (outputStats formatG options) options ensemble order nbServers servers := by
  obtain ⟨servers, arrived⟩ := servers_arrived accepted vects samples known
  have parts : ∀ stat ∈ outputStats formatG options,
      stat.source.Parts fun stats : StepStats D => stats := fun stat =>
    outputStats_parts (fun _ _ same => by rw [same]) fun _ _ _ same => by rw [same]
  refine ⟨servers, fun s server => (arrived s server).1, writesWhole_of_held vects some_server
    (fun s server => placed_sameStudy (placed_freshServer ensemble options nbServers s)
      (run_sameStudy (arrived s server).1)) (fun _ member => member) parts listed ?_⟩
  intro s server fieldId name field rank client t step whole stats
  exact holdsPart_ordered options.firstStart vects rfl (arrived s server).2.1
    (arrived s server).2.2 field client step (some_simu name t)
    (fun some_count => ordered s server fieldId name field rank client some_count t step) stats

/-- With silences of the launcher, all files but those of the quantiles. -/
theorem ensemble_writesWhole_resampled [DecidableEq D] (formatG : D → String)
    {rounds : Nat → List (Round D)} {order : String → Nat → List Nat}
    (accepted : rejected options = false) (vects : ensemble.nbVect = options.nbVect)
    (samples : options.samplingSize = (ensemble.nbSimu : Int)) (some_server : 0 < nbServers)
    (known : ∀ s < nbServers, ∀ event ∈ eventsOf (rounds s),
      Known (ensemble.Sends nbServers options.nbTimeSteps s) ensemble.nbSimu options.nbParameters
        event)
    (complete : ∀ s < nbServers, Meets (roundStep noRestore) CompleteSample
      (freshServer options ⟨s, nbServers, ensemble.nbClients⟩ ensemble.names) (rounds s))
    (listed : ∀ name t, ∀ simuId ∈ order name t, simuId < ensemble.nbSimu)
    (some_simu : ∀ name t, order name t ≠ [])
    (ordered : InOrder ensemble nbServers options.nbTimeSteps order
      fun s => eventsOf (rounds s)) :
    ∃ servers : Nat → Server D,
      (∀ s < nbServers, run (roundStep noRestore) (freshServer options
        ⟨s, nbServers, ensemble.nbClients⟩ ensemble.names) (rounds s) = some (servers s)) ∧
      WritesWhole (outputStats formatG { options with quantileOp := false }) options ensemble order
        nbServers servers := by
  obtain ⟨plains, arrived⟩ := servers_arrived accepted vects samples known
  obtain ⟨servers, resampled⟩ :=
    servers_resampled accepted complete fun s server => (arrived s server).1
  have parts : ∀ stat ∈ outputStats formatG { options with quantileOp := false },
      stat.source.Parts (quantileFree (D := D)) := fun stat =>
    outputStats_parts (fun _ _ same => same) fun requested => nomatch requested
  refine ⟨servers, fun s server => (resampled s server).1, writesWhole_of_held vects some_server
    (fun s server => placed_sampleFree (resampled s server).2 (placed_sameStudy
      (placed_freshServer ensemble options nbServers s) (run_sameStudy (arrived s server).1)))
    (fun _ member => outputStats_without member) parts listed ?_⟩
  intro s server fieldId name field rank client t step whole stats
  refine holdsPart_sampleFree (fun _ _ same => same) (resampled s server).2 ?_
  obtain ⟨data, entry, holds⟩ := holdsPart_ordered options.firstStart vects rfl
    (arrived s server).2.1 (arrived s server).2.2 field client step (some_simu name t)
    (fun some_count => ordered s server fieldId name field rank client some_count t step) stats
  exact ⟨data, entry, holds.mono fun _ _ same => by rw [same]⟩

end Anyhow

section Exact

variable {K : Type} [Field K] [LinearOrder K] [IsStrictOrderedRing K] [Libm K]
  {options : Options K} {ensemble : Ensemble K} {nbServers : Nat}

/-- In exact arithmetic neither the order nor the silences of the launcher matter for the files
without ranks of simulations and without quantiles. -/
theorem ensemble_writesWhole (formatG : K → String) {rounds : Nat → List (Round K)}
    (accepted : rejected options = false) (vects : ensemble.nbVect = options.nbVect)
    (samples : options.samplingSize = (ensemble.nbSimu : Int)) (some_server : 0 < nbServers)
    (known : ∀ s < nbServers, ∀ event ∈ eventsOf (rounds s),
      Known (ensemble.Sends nbServers options.nbTimeSteps s) ensemble.nbSimu options.nbParameters
        event)
    (complete : ∀ s < nbServers, Meets (roundStep noRestore) CompleteSample
      (freshServer options ⟨s, nbServers, ensemble.nbClients⟩ ensemble.names) (rounds s))
    (all : ∀ s < nbServers,
      Arrived (ensemble.Sends nbServers options.nbTimeSteps s) (eventsOf (rounds s))) :
    ∃ servers : Nat → Server K,
      (∀ s < nbServers, run (roundStep noRestore) (freshServer options
        ⟨s, nbServers, ensemble.nbClients⟩ ensemble.names) (rounds s) = some (servers s)) ∧
      WritesWhole (orderFreeStats formatG options) options ensemble
        (fun _ _ => List.range ensemble.nbSimu) nbServers servers := by
  obtain ⟨plains, arrived⟩ := servers_arrived accepted vects samples known
  obtain ⟨servers, resampled⟩ :=
    servers_resampled accepted complete fun s server => (arrived s server).1
  have simulations : 0 < ensemble.nbSimu := by
    have positive := samplingSize_pos accepted
    omega
  refine ⟨servers, fun s server => (resampled s server).1, writesWhole_of_held vects some_server
    (fun s server => placed_sampleFree (resampled s server).2 (placed_sameStudy
      (placed_freshServer ensemble options nbServers s) (run_sameStudy (arrived s server).1)))
    (orderFreeStats_subset formatG options) (fun _ => orderFreeStats_parts)
    (fun _ _ simuId member => List.mem_range.mp member) ?_⟩
  intro s server fieldId name field rank client t step whole stats
  refine holdsPart_sampleFree values_of_quantileFree (resampled s server).2 ?_
  exact holdsPart_arrived options.firstStart vects simulations rfl (arrived s server).2.1
    (arrived s server).2.2 (fun m sent => mem_arrivalsOf.mpr (all s server m sent)) field client
    step stats

end Exact

end Melissa
