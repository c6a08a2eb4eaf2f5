import Melissa.Restart.NeverLost
import Melissa.Study.Campaign

/-! A study whose server ranks die and are started again. What a checkpoint has saved, and what is
sent again after it, is computed once: the files of the means, of the extrema and of the thresholds
are those of a study without a death. A restart forgets the central moments, so the files made of
them are left out. -/

namespace Melissa

open Arrays Blocks Files Runs

section Survive

variable {K : Type}

/-- The moments without what a restart forgets. -/
def eraseCentral (moments : Moments K) : Moments K :=
  { moments with theta2 := [], theta3 := [], theta4 := [] }

/-- What depends neither on the lives of the server nor on the order of the simulations. -/
def survivors (stats : StepStats K) : StepStats K :=
  { moments := stats.moments.map eraseCentral, minMax := stats.minMax.map eraseIds
    thresholds := stats.thresholds, quantiles := none, sobolIndices := none }

theorem survivors_keptStats [Zero K] (vectSize : Nat) (stats : StepStats K) :
    survivors (keptStats vectSize stats) = survivors stats := by
  simp only [survivors, keptStats, Option.map_map]
  rfl

theorem survivors_values (stats : StepStats K) : survivors (values stats) = survivors stats := by
  simp only [survivors, values, Option.map_map]
  rfl

theorem thresholds_of_survivors {stats stats' : StepStats K}
    (same : survivors stats = survivors stats') : stats.thresholds = stats'.thresholds := by
  have shown : (survivors stats).thresholds = (survivors stats').thresholds := by rw [same]
  exact shown

theorem extrema_of_survivors {array : MinMax K → List K}
    (ids : ∀ minMax, array (eraseIds minMax) = array minMax) {stats stats' : StepStats K}
    (same : survivors stats = survivors stats') :
    stats.minMax.map array = stats'.minMax.map array := by
  have extrema := congrArg (fun stats : StepStats K => stats.minMax.map array) same
  simpa only [survivors, Option.map_map, Function.comp_def, ids] using extrema

theorem means_of_survivors {stats stats' : StepStats K}
    (same : survivors stats = survivors stats') :
    stats.moments.map Moments.m1 = stats'.moments.map Moments.m1 := by
  have means := congrArg (fun stats : StepStats K => stats.moments.map Moments.m1) same
  simpa only [survivors, Option.map_map, Function.comp_def, eraseCentral] using means

theorem meanStat_survives : (meanStat (D := K)).source.Parts survivors := by
  have copied : Componentwise survivors fun t data =>
      ((stepStats data t).moments.map Moments.m1).bind (memcpyDoubles (D := K) data) := by
    apply componentwise_memcpyDoubles fun stats => stats.moments.map Moments.m1
    · exact fun _ _ => means_of_survivors
    · intro n piece stats
      simp only [StepStats.part, Option.map_map, Function.comp_def]
      rfl
  exact copied.congr fun t data => by rw [Option.bind_map]; rfl

/-- The files that show nothing else. -/
def survivingStats (formatG : K → String) (options : Options K) : List (OutputStat K) :=
  (if options.meanOp then [meanStat] else []) ++
  (if options.minAndMaxOp then [minStat, maxStat] else []) ++
  (if options.thresholdOp then options.threshold.mapIdx (thresholdStat formatG) else [])

theorem survivingStats_parts {formatG : K → String} {options : Options K} {stat : OutputStat K}
    (member : stat ∈ survivingStats formatG options) : stat.source.Parts survivors := by
  simp only [survivingStats, List.mem_append] at member
  rcases member with (member | member) | member
  · rw [List.mem_singleton.mp (mem_of_mem_if member).2]
    exact meanStat_survives
  · have listed := (mem_of_mem_if member).2
    simp only [List.mem_cons, List.not_mem_nil, or_false] at listed
    rcases listed with rfl | rfl
    · exact minStat_parts fun _ _ => extrema_of_survivors fun _ => rfl
    · exact maxStat_parts fun _ _ => extrema_of_survivors fun _ => rfl
  · obtain ⟨value, _, rfl⟩ := List.mem_mapIdx.mp (mem_of_mem_if member).2
    exact thresholdStat_parts (fun _ _ => thresholds_of_survivors) formatG value _

variable [Field K] [LinearOrder K] [Libm K]

theorem survivingStats_subset (formatG : K → String) (options : Options K) :
    ∀ stat ∈ survivingStats formatG options, stat ∈ orderFreeStats formatG options := by
  intro stat member
  simp only [survivingStats, orderFreeStats, List.mem_append] at member ⊢
  rcases member with (member | member) | member
  · simp [member]
  · simp [member]
  · simp [member]

end Survive

section Ranks

variable {D B : Type}

/-- A server rank of the study. -/
def Ensemble.rankStudy (ensemble : Ensemble D) (options : Options D) (nbServers s : Nat) :
    Study D :=
  { options := options, commData := ⟨s, nbServers, ensemble.nbClients⟩, names := ensemble.names }

/-- The structure of the message has room for values and the bit of the message. -/
def holdsMessage (server : Server D) (m : SimuData D) : Bool :=
  match entryAt server m.fieldName m.clientRank with
  | some data => decide (0 < data.vectSize) && bitOf data m.simuId m.timeStamp.toNat
  | none => false

/-- What a server rank may find to do in its lives: only messages of the study arrive, and all ranks
know the same simulations. -/
def Lived (sends : SimuData D → Prop) (nbSimu : Nat) : LifeEvent D → Prop
  | .pass (.data _ m _) => sends m
  | .restart others => ∀ statuses ∈ others, statuses.length = nbSimu
  | _ => True

variable {ensemble : Ensemble D} {options : Options D} {nbServers s fieldId rank : Nat}
  {name : String} {events : List (LifeEvent D)}

theorem sends_named {nbTimeSteps : Nat} {m : SimuData D}
    (sent : ensemble.Sends nbServers nbTimeSteps s m) (named : m.fieldName = name)
    (own : m.clientRank = rank) :
    m.simuId < ensemble.nbSimu ∧ 0 < (ensemble.piece nbServers name s rank).count ∧
      m = ensemble.message nbServers s m.simuId m.timeStamp.toNat name rank := by
  obtain ⟨simuId, timeStep, name', rank', simu, _, _, _, some_count, rfl⟩ := sent
  have sameName : name' = name := named
  have sameRank : rank' = rank := own
  subst sameName
  subst sameRank
  exact ⟨simu, some_count, rfl⟩

/-- A message of a run to a structure is one of the study. -/
theorem messagesTo_sends {nbTimeSteps nbSimu : Nat}
    (lived : ∀ event ∈ events, Lived (ensemble.Sends nbServers nbTimeSteps s) nbSimu event)
    {m : SimuData D} (member : m ∈ messagesTo name rank events) :
    m.simuId < ensemble.nbSimu ∧ 0 < (ensemble.piece nbServers name s rank).count ∧
      m = ensemble.message nbServers s m.simuId m.timeStamp.toNat name rank := by
  obtain ⟨⟨now, reply, sent⟩, named, own⟩ := mem_messagesTo member
  have arrived : ensemble.Sends nbServers nbTimeSteps s m := lived _ sent
  exact sends_named arrived named own

theorem consistent_lived
    (lived : ∀ event ∈ events, Lived (ensemble.Sends nbServers options.nbTimeSteps s)
      options.samplingSize.toNat event) (name : String) (rank : Nat) :
    Consistent (ensemble.rankStudy options nbServers s)
      (ensemble.piece nbServers name s rank).count name rank events := by
  refine ⟨?_, fun others sent => lived _ sent⟩
  intro m member
  rw [(messagesTo_sends lived member).2.2]
  rfl

/-- The structure that the messages of a field go to. -/
theorem entryOf_entryAt {server : Server D} (placed : Placed ensemble server)
    (field : ensemble.names[fieldId]? = some name) :
    entryAt server name rank = entryOf server.fields fieldId rank := by
  have found : getFieldId server.fields name = some fieldId := by
    have here := Ensemble.findIdx_name field
    rw [← placed.names, List.findIdx?_map] at here
    exact here
  rw [entryAt, found, Option.bind_some]

variable [Zero D] [Add D] [Sub D] [Mul D] [Div D] [NatCast D] [IntCast D]
  [Pow D ℕ] [LT D] [DecidableLT D] [LE D] [DecidableLE D] [Libm D] {codec : Codec D B}
  {tempSize : Nat} {life : Life D B}

theorem placed_lifeStep {life' : Life D B} {event : LifeEvent D}
    (placed : Placed ensemble life.server)
    (taken : lifeStep codec tempSize (ensemble.rankStudy options nbServers s) life event =
      some life') : Placed ensemble life'.server := by
  cases event with
  | pass event =>
      obtain ⟨server, stepped, rfl⟩ := Option.map_eq_some_iff.mp taken
      exact placed_sameStudy placed (step_sameStudy stepped)
  | checkpoint now =>
      cases taken
      unfold checkpointRound
      split
      · exact ⟨placed.names, placed.places⟩
      · exact placed
  | restart others =>
      obtain ⟨server, started, rfl⟩ := Option.map_eq_some_iff.mp taken
      obtain ⟨read, _, rest⟩ := Option.bind_eq_some_iff.mp started
      cases rest
      refine ⟨?_, fun _ _ => rfl⟩
      simp [startServer, Ensemble.rankStudy, emptyField, Function.comp_def]

theorem placed_lives
    (reached : run (lifeStep codec tempSize (ensemble.rankStudy options nbServers s))
      (firstLife (ensemble.rankStudy options nbServers s)) events = some life) :
    Placed ensemble life.server := by
  have preserved (life : Life D B) (event : LifeEvent D) (life' : Life D B)
      (placed : Placed ensemble life.server)
      (taken : lifeStep codec tempSize (ensemble.rankStudy options nbServers s) life event =
        some life') : Placed ensemble life'.server := placed_lifeStep placed taken
  exact run_invariant preserved (placed_freshServer ensemble options nbServers s) reached

/-- A structure that holds all messages of the study has got those of all simulations at each time
step, in this life or, saved, in an earlier one. -/
theorem replay_lives (unbounded : ∀ n, codec.Fits n) (simulations : 0 < ensemble.nbSimu)
    (steps : 0 < options.nbTimeSteps) (field : ensemble.names[fieldId]? = some name)
    (client : rank < ensemble.nbClients)
    (lived : ∀ event ∈ events, Lived (ensemble.Sends nbServers options.nbTimeSteps s)
      options.samplingSize.toNat event)
    (reached : run (lifeStep codec tempSize (ensemble.rankStudy options nbServers s))
      (firstLife (ensemble.rankStudy options nbServers s)) events = some life)
    (complete : ∀ m, ensemble.Sends nbServers options.nbTimeSteps s m →
      holdsMessage life.server m = true) :
    ∃ data, entryOf life.server.fields fieldId rank = some data ∧
      data.vectSize = (ensemble.piece nbServers name s rank).count ∧
      (0 < (ensemble.piece nbServers name s rank).count → ∀ t < options.nbTimeSteps,
        ∃ messages : List (SimuData D),
          messages.Perm ((List.range ensemble.nbSimu).map fun simuId =>
            ensemble.message nbServers s simuId t name rank) ∧
          keptStats (ensemble.piece nbServers name s rank).count (stepStats data t) =
            keptStats (ensemble.piece nbServers name s rank).count
              (messages.foldl (contribute options (ensemble.piece nbServers name s rank).count)
                (stepStats (melissaInitData options emptyData
                  (ensemble.piece nbServers name s rank).count) t))) := by
  have known := List.mem_of_getElem? field
  have consistent := consistent_lived lived name rank
  have followed : Followed codec (ensemble.rankStudy options nbServers s)
      (ensemble.piece nbServers name s rank).count name rank (messagesTo name rank events)
        life := by
    refine run_invariant_of_mem ?_ (followed_firstLife known client _) reached
    intro life event member life' inv taken
    exact followed_step unbounded known client consistent member inv taken
  obtain ⟨data, saved, past, savedPast, tracked⟩ := followed.tracked
  -- what `complete` says of this structure
  have held {simuId t : Nat} (simu : simuId < ensemble.nbSimu) (step : t < options.nbTimeSteps)
      (some_count : 0 < (ensemble.piece nbServers name s rank).count) :
      0 < data.vectSize ∧ bitOf data simuId t = true := by
    have holds := complete (ensemble.message nbServers s simuId t name rank)
      ⟨simuId, t, name, rank, simu, step, known, client, some_count, rfl⟩
    have entry : entryAt life.server (ensemble.message nbServers s simuId t name rank).fieldName
        (ensemble.message nbServers s simuId t name rank).clientRank = some data := tracked.entry
    simp only [holdsMessage, entry, Bool.and_eq_true, decide_eq_true_eq] at holds
    exact holds
  have entry := tracked.entry
  rw [entryOf_entryAt (placed_lives reached) field] at entry
  refine ⟨data, entry, ?_, ?_⟩
  · rcases Nat.eq_zero_or_pos data.vectSize with nothing | room
    · rw [nothing]
      by_contra some_count
      have positive := (held simulations steps (by omega)).1
      omega
    · exact (tracked.memory.replay room).size
  · intro some_count t step
    have replay := tracked.memory.replay (held simulations step some_count).1
    refine ⟨firstMessages past t, Ensemble.firstMessages_perm ?_, replay.stats t step⟩
    intro m
    simp only [List.mem_filter, List.mem_map, List.mem_range]
    constructor
    · intro kept
      obtain ⟨member, stamp⟩ := kept
      obtain ⟨simu, _, same⟩ := messagesTo_sends lived (tracked.received m member)
      rw [atStep, beq_iff_eq] at stamp
      rw [stamp, Int.toNat_natCast] at same
      exact ⟨m.simuId, simu, same.symm⟩
    · intro listed
      obtain ⟨simuId, simu, rfl⟩ := listed
      obtain ⟨m, member, own, stamp⟩ :=
        (replay.bits simuId t step).mp (held simu step some_count).2
      have same := (messagesTo_sends lived (tracked.received m member)).2.2
      rw [own, stamp, Int.toNat_natCast] at same
      rw [← same]
      exact ⟨member, by rw [atStep, stamp]; exact beq_self_eq_true (t : Int)⟩

end Ranks

section Exact

variable {K B : Type} [Field K] [LinearOrder K] [IsStrictOrderedRing K] [Libm K]
  {options : Options K} {ensemble : Ensemble K} {nbServers : Nat} {codec : Codec K B}
  {tempSize : Nat}

/-- A structure with all bits of the study holds its part of the whole field, up to what a restart
forgets. -/
theorem holdsPart_lives (unbounded : ∀ n, codec.Fits n)
    (vects : ensemble.nbVect = options.nbVect) (simulations : 0 < ensemble.nbSimu)
    {s fieldId rank t : Nat} {name : String} {events : List (LifeEvent K)} {life : Life K B}
    (field : ensemble.names[fieldId]? = some name) (client : rank < ensemble.nbClients)
    (step : t < options.nbTimeSteps)
    (lived : ∀ event ∈ events, Lived (ensemble.Sends nbServers options.nbTimeSteps s)
      options.samplingSize.toNat event)
    (reached : run (lifeStep codec tempSize (ensemble.rankStudy options nbServers s))
      (firstLife (ensemble.rankStudy options nbServers s)) events = some life)
    (complete : ∀ m, ensemble.Sends nbServers options.nbTimeSteps s m →
      holdsMessage life.server m = true)
    {whole : MelissaData K}
    (stats : stepStats whole t = (List.range ensemble.nbSimu).foldl (fun stats simuId =>
        updateStep options (ensemble.vectSize name) simuId
          (inVectTab options (ensemble.wholeMessage simuId t name)) stats)
      (stepStats (melissaInitData options emptyData (ensemble.vectSize name)) t)) :
    ∃ data, entryOf life.server.fields fieldId rank = some data ∧
      HoldsPart survivors (ensemble.piece nbServers name s rank) t whole data := by
  obtain ⟨data, entry, size, replayed⟩ := replay_lives unbounded simulations (by omega) field
    client lived reached complete
  refine ⟨data, entry, size, fun some_count => ?_⟩
  obtain ⟨messages, perm, kept⟩ := replayed some_count t step
  let start := stepStats (melissaInitData options emptyData
    (ensemble.piece nbServers name s rank).count) t
  let update := contribute options (ensemble.piece nbServers name s rank).count
  have reordered : values (messages.foldl update start) =
      values (((List.range ensemble.nbSimu).map fun simuId =>
        ensemble.message nbServers s simuId t name rank).foldl update start) :=
    values_foldl_perm options _ SimuData.simuId (inVectTab options) perm start
  calc survivors (stepStats data t)
      = survivors (messages.foldl update start) := by
        rw [← survivors_keptStats (ensemble.piece nbServers name s rank).count, kept,
          survivors_keptStats]
    _ = survivors (((List.range ensemble.nbSimu).map fun simuId =>
          ensemble.message nbServers s simuId t name rank).foldl update start) := by
        rw [← survivors_values, reordered, survivors_values]
    _ = survivors ((stepStats whole t).part (ensemble.piece nbServers name s rank)) := by
        rw [part_whole vects some_count stats]
        rfl

/-- Once the bits of all messages are set, the files without central moments are those of the whole
fields, whatever the server ranks have been through. -/
theorem ensemble_survives (formatG : K → String) (unbounded : ∀ n, codec.Fits n)
    {events : Nat → List (LifeEvent K)} {lives : Nat → Life K B}
    (vects : ensemble.nbVect = options.nbVect)
    (samples : options.samplingSize = (ensemble.nbSimu : Int)) (simulations : 0 < ensemble.nbSimu)
    (some_server : 0 < nbServers)
    (lived : ∀ s < nbServers, ∀ event ∈ events s,
      Lived (ensemble.Sends nbServers options.nbTimeSteps s) ensemble.nbSimu event)
    (reached : ∀ s < nbServers,
      run (lifeStep codec tempSize (ensemble.rankStudy options nbServers s))
        (firstLife (ensemble.rankStudy options nbServers s)) (events s) = some (lives s))
    (complete : ∀ s < nbServers, ∀ m, ensemble.Sends nbServers options.nbTimeSteps s m →
      holdsMessage (lives s).server m = true) :
    WritesWhole (survivingStats formatG options) options ensemble
      (fun _ _ => List.range ensemble.nbSimu) nbServers fun s => (lives s).server := by
  have sample : options.samplingSize.toNat = ensemble.nbSimu := by omega
  intro fieldId name field
  obtain ⟨whole, computed, size, stats⟩ := computeAll_wholeMessages vects
    (List.mem_of_getElem? field) fun _ simuId member => List.mem_range.mp member
  refine ⟨whole, computed, ?_⟩
  intro stat member t step stale stale'
  have allocated := statsAllocated_computeAll
    (statsAllocated_melissaInitData options (ensemble.vectSize name)) computed
  have requested := orderFreeStats_subset formatG options stat
    (survivingStats_subset formatG options stat member)
  refine writeStatRanks_whole some_server field (fun s server => placed_lives (reached s server))
    allocated size (survivingStats_parts member) requested step ?_ stale stale'
  intro s server rank client
  refine holdsPart_lives unbounded vects simulations field client step ?_ (reached s server)
    (complete s server) (stats t step)
  rw [sample]
  exact lived s server

end Exact

/-- Two messages, a checkpoint, a death, and the other messages. -/
private def heatLives (s : Nat) : List (LifeEvent ℚ) :=
  ((heatCampaign.ensemble.sent 2 2 s).take 2).map (fun m => .pass (.data 1 m heatReply)) ++
    [.checkpoint 10, .restart []] ++
    ((heatCampaign.ensemble.sent 2 2 s).drop 2).map fun m => .pass (.data 11 m heatReply)

private def heatLife (s : Nat) : Option (Life ℚ (Cell ℚ)) :=
  run (lifeStep (exactCodec ℚ) 0 ⟨twoByTwo, ⟨s, 2, 2⟩, ["heat"]⟩)
    (firstLife ⟨twoByTwo, ⟨s, 2, 2⟩, ["heat"]⟩) (heatLives s)

private theorem heatLives_lived (s : Nat) : ∀ event ∈ heatLives s,
    Lived (heatCampaign.ensemble.Sends 2 twoByTwo.nbTimeSteps s) heatCampaign.nbSimu event := by
  intro event member
  rw [heatLives, List.mem_append, List.mem_append] at member
  rcases member with (first | between) | second
  · obtain ⟨m, listed, rfl⟩ := List.mem_map.mp first
    exact Ensemble.mem_sent.mp (List.mem_of_mem_take listed)
  · simp only [List.mem_cons, List.not_mem_nil, or_false] at between
    rcases between with rfl | rfl
    · trivial
    · intro statuses none_there
      cases none_there
  · obtain ⟨m, listed, rfl⟩ := List.mem_map.mp second
    exact Ensemble.mem_sent.mp (List.mem_of_mem_drop listed)

end Melissa
