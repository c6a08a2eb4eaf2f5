import Melissa.Protocol.Counted
import Melissa.Protocol.Groups
import Melissa.Restart.Kept

/-! The launcher never takes a Sobol study for finished before the server does. A server that dies
forgets what it has not saved, and the messages to it are lost; the statuses it sends when it is
started again tell the launcher which groups are not finished any more. -/

namespace Melissa

open Files Reports Runs

section Deliver

variable {D : Type} {nbSimu : Nat} {server : Server D}
  {toServer : List (LauncherMessage D)} {packet : Packet} {rest : List Packet}
  {config : StudyConfig} {launcher launcher' : Launcher D}

theorem pyIndex_single (length i : Nat) :
    pyIndex length ((i : Int) / 1) = if i < length then some i else none := by
  rw [Int.ediv_one, pyIndex, if_pos (Int.natCast_nonneg i), Int.toNat_natCast]

/-- The messenger writes the status it is told into the group of the simulation. -/
theorem belief_groupState {simuId g : Nat} {status : Int} (single : config.batchSize = 1)
    (sobol : SobolGroups nbSimu launcher.groups) (inside : g < nbSimu)
    (taken : launcherStep config launcher (.message (.groupState simuId status)) =
      some launcher') :
    belief launcher'.groups g = if simuId = g then status else belief launcher.groups g := by
  simp only [launcherStep] at taken
  split at taken
  · cases taken
    simp only [handleMessage, single, pyIndex_single]
    by_cases known : simuId < launcher.groups.length
    · have present := List.getElem?_eq_getElem known
      have told : (groupState ((simuId : Int) % 1).toNat status
          launcher.groups[simuId]).1.status = status := by
        rw [groupState, if_neg (by rw [sobol.jobType simuId _ present]; decide)]
      simp only [if_pos known, Option.bind_some, present, Option.map_some]
      rw [belief_set present, told]
    · have other : simuId ≠ g := by
        have number := sobol.number
        omega
      simp only [if_neg known, Option.bind_none, if_neg other]
  · cases taken

/-- A timeout makes no group finished. -/
theorem belief_timeout {simuId : Int}
    (taken : launcherStep config launcher (.message (.timeout simuId)) = some launcher') (g : Nat) :
    belief launcher'.groups g = belief launcher.groups g ∨
      belief launcher'.groups g ≠ finished := by
  simp only [launcherStep] at taken
  split at taken
  · cases taken
    simp only [handleMessage]
    split
    · exact Or.inl rfl
    · split
      · exact Or.inl rfl
      · rename_i i _
        have kept (group : Group D) :
            { group with status := timedOutStatus }.status = timedOutStatus := rfl
        rcases belief_modify kept g with same | written
        · exact Or.inl same
        · exact Or.inr (by rw [written]; decide)
  · cases taken

theorem settled_deliver {garbled : Int} (single : config.batchSize = 1)
    (sobol : SobolGroups nbSimu launcher.groups)
    (justified : Justified (Accounted nbSimu server toServer) (reports (packet :: rest))
      (belief launcher.groups))
    (taken : launcherStep config launcher (.message (packet.read garbled)) = some launcher') :
    Justified (Accounted nbSimu server toServer) (reports rest)
      (belief launcher'.groups) := by
  have unread (quiet : reports (packet :: rest) = reports rest)
      (kept : ∀ g, belief launcher'.groups g = belief launcher.groups g ∨
        belief launcher'.groups g ≠ finished) :
      Justified (Accounted nbSimu server toServer) (reports rest)
        (belief launcher'.groups) := by
    rw [quiet] at justified
    refine justified.change ?_
    intro g _ settled inside ended
    rcases kept g with same | other
    · exact settled inside (same ▸ ended)
    · exact absurd ended other
  have silent (same : launcher'.groups = launcher.groups)
      (quiet : reports (packet :: rest) = reports rest) :
      Justified (Accounted nbSimu server toServer) (reports rest)
        (belief launcher'.groups) := unread quiet fun g => Or.inl (by rw [same])
  have handled (msg : ServerMessage) (own : packet.read garbled = msg) :
      launcher' = handleMessage config.batchSize launcher msg := by
    rw [own] at taken
    simp only [launcherStep] at taken
    split at taken
    · exact (Option.some.inj taken).symm
    · cases taken
  cases packet with
  | server => exact silent (by rw [handled .server rfl]; rfl) rfl
  | stop => exact silent (by rw [handled .stop rfl]; rfl) rfl
  | notice notice =>
      cases notice with
      | simuInfo simuId => exact silent (by rw [handled .other rfl]; rfl) rfl
      | alive => exact silent (by rw [handled .other rfl]; rfl) rfl
      | timeout simuId => exact unread rfl (belief_timeout taken)
      | simuStatus simuId status =>
          have told : Justified (Accounted nbSimu server toServer)
              ((simuId, (status : Int)) :: reports rest) (belief launcher.groups) := justified
          refine told.deliver ?_
          intro g _ settled inside
          rw [belief_groupState single sobol inside taken]
          exact settled inside

end Deliver

section Restarted

variable {D B : Type}

/-- A server that is started again reports every simulation. -/
theorem reports_states (simulations : List (Simulation D)) :
    reports (pushed (simulations.mapIdx fun i simu => .simuStatus i simu.status)) =
      (simulations.map fun simu => (simu.status : Int)).mapIdx fun i status => (i, status) := by
  induction simulations using List.reverseRecOn with
  | nil => rfl
  | append_singleton simulations simu ih =>
      rw [List.mapIdx_concat, List.map_append, List.map_singleton, List.mapIdx_concat, ← ih,
        List.length_map, pushed, List.filterMap_append, reports_append]
      rfl

theorem restartServer_states {codec : Codec D B} {tempSize : Nat} {study : Study D}
    {others : List (List Nat)} {disk : Disk B} {server : Server D}
    (rank : study.commData.rank = 0)
    (started : restartServer codec tempSize study others disk = some server) :
    server.outbox = server.simulations.mapIdx (fun i simu => .simuStatus i simu.status) ∧
      server.nbFinishedSimulations = (statuses server).countP fun status => status == 2 := by
  obtain ⟨simulations, _, rest⟩ := Option.bind_eq_some_iff.mp started
  cases rest
  refine ⟨if_pos rank, ?_⟩
  change simulations.countP (fun simu => simu.status == 2) =
    ((simulations.map resetRunning).map Simulation.status).countP fun status => status == 2
  rw [List.countP_map, List.countP_map]
  apply List.countP_congr
  intro simu _
  by_cases running : simu.status = 1
  · simp [resetRunning, running]
  · simp [resetRunning, running]

/-- A restart counts all simulations that it reads back as finished. -/
theorem restartServer_counted {codec : Codec D B} {tempSize : Nat} {study : Study D}
    {others : List (List Nat)} {disk : Disk B} {server : Server D}
    (rank : study.commData.rank = 0)
    (started : restartServer codec tempSize study others disk = some server)
    (bounded : StatusesBounded server) : nbFinished server ≤ server.nbFinishedSimulations := by
  rw [(restartServer_states rank started).2, nbFinished]
  apply List.countP_mono_left
  intro status member ended
  have atMost := bounded status member
  rw [decide_eq_true_eq] at ended
  rw [beq_iff_eq]
  omega

/-- What was settled before is forgotten; the new statuses settle everything again. -/
theorem settled_restart {codec : Codec D B} {tempSize nbSimu : Nat} {study : Study D}
    {others : List (List Nat)} {disk : Disk B} {server : Server D}
    (rank : study.commData.rank = 0)
    (started : restartServer codec tempSize study others disk = some server)
    (number : server.simulations.length = nbSimu) (front : List (Nat × Int)) (belief : Nat → Int)
    (toServer : List (LauncherMessage D)) :
    Justified (Accounted nbSimu server toServer) (front ++ reports (pushed server.outbox))
      belief := by
  rw [(restartServer_states rank started).1, reports_states]
  refine justified_of_all (fun g => last_mapIdx _ g) ?_ ?_
  · intro g status told inside ended
    rw [List.getElem?_map, Option.map_eq_some_iff] at told
    obtain ⟨simu, present, rfl⟩ := told
    have two : simu.status = 2 := Int.ofNat.inj ended
    rw [simuStatus_of_present present]
    exact Or.inl two.ge
  · intro g unknown inside
    rw [List.getElem?_map, Option.map_eq_none_iff] at unknown
    have behind := List.getElem?_eq_none_iff.mp unknown
    omega

end Restarted

section System

variable {D B : Type}

/-- What every state of launcher and server has in common. -/
structure Agreed (setting : Setting D B) (system : System D B) : Prop where
  sound : Sound setting.codec setting.study system.life
  sobol : SobolGroups setting.study.options.samplingSize.toNat system.launcher.groups
  seen : StopSeen system.launcher
  counted : nbFinished system.life.server ≤ system.life.server.nbFinishedSimulations
  settled : system.launcher.server.wantStop = false →
    Justified (Accounted setting.study.options.samplingSize.toNat system.life.server
      system.toServer) (reports system.toLauncher) (belief system.launcher.groups)

theorem sound_written {codec : Codec D B} {study : Study D} {life : Life D B}
    (sound : Sound codec study life) :
    Sound codec study
      { life with disk := applyOps life.disk (checkpointOps codec life.server) } := by
  refine ⟨sound.options, sound.restart, sound.sample, sound.simulations, sound.commData,
    sound.names, sound.places, sound.idle, sound.bounded,
    Or.inr ⟨_, sound.simulations, statusesBounded_iff.mp sound.bounded, ?_⟩⟩
  rw [← sound.commData]
  exact checkpoint_simulations codec life.server life.disk

theorem agreed_start {setting : Setting D B} {groups : List (Group D)}
    (sobol : SobolGroups setting.study.options.samplingSize.toNat groups)
    (waits : ∀ group ∈ groups, group.status = notSubmitted) :
    Agreed setting (startSystem setting.study groups) := by
  refine ⟨sound_firstLife setting.codec setting.study, sobol, ?_, ?_, ?_⟩
  · intro next stopping
    cases stopping
  · exact (counted_freshServer setting.study.options setting.study.commData
      setting.study.names).ge
  · intro _ g inside ended
    have bound : g < groups.length := by
      rw [sobol.number]
      exact inside
    have present := List.getElem?_eq_getElem bound
    change belief groups g = finished at ended
    rw [belief_of_present present, waits _ (List.getElem_mem bound)] at ended
    cases ended

variable {setting : Setting D B} {system system' : System D B}

theorem agreed_thread {event : LauncherEvent} {launcher : Launcher D} {jobId : String}
    (agreed : Agreed setting system) (thread : ∀ msg, event ≠ .message msg)
    (taken : launcherStep setting.config system.launcher event = some launcher) :
    Agreed setting { system with
      launcher := launcher
      toServer := system.toServer ++
        sentByThread setting.restartGroup jobId system.launcher launcher event } := by
  obtain ⟨before, seen⟩ := wantStop_step taken
  refine ⟨agreed.sound, sobolGroups_step agreed.sobol taken, seen agreed.seen, agreed.counted, ?_⟩
  intro going
  refine ((agreed.settled (before going)).mono ?_).change ?_
  · intro g status settled inside ended
    rcases settled inside ended with here | ⟨jobId, sent⟩
    · exact Or.inl here
    · exact Or.inr ⟨jobId, List.mem_append_left _ sent⟩
  · intro g _ settled inside ended
    rcases belief_thread agreed.sobol thread agreed.seen (before going) taken g with same |
      other | dropped
    · exact settled inside (same ▸ ended)
    · exact absurd ended other
    · refine Or.inr ⟨jobId, List.mem_append_right _ ?_⟩
      unfold sentByThread
      exact List.mem_append_left _ (List.mem_append_right _ (List.mem_map_of_mem dropped))

variable [Zero D] [Add D] [Sub D] [Mul D] [Div D] [NatCast D] [IntCast D]
  [Pow D ℕ] [LT D] [DecidableLT D] [LE D] [DecidableLE D] [Libm D]

/-- The events that other ranks and the operating system are responsible for: at a restart the
other ranks have read the statuses of all simulations. -/
def Wholesome (setting : Setting D B) : SystemEvent D → Prop
  | .restart others _ =>
      ∀ statuses ∈ others, statuses.length = setting.study.options.samplingSize.toNat
  | _ => True

theorem agreed_pass {event : Event D} (rank : setting.study.commData.rank = 0)
    (unbounded : ∀ n, setting.codec.Fits n) {toServer : List (LauncherMessage D)}
    (agreed : Agreed setting system)
    (rest : ∀ simuId jobId, .drop simuId jobId ∈ system.toServer →
      event = .launcher (.drop simuId jobId) ∨ .drop simuId jobId ∈ toServer)
    (taken : serverPass setting { system with toServer := toServer } (.pass event) =
      some system') : Agreed setting system' := by
  unfold serverPass at taken
  split at taken
  · cases taken
  · obtain ⟨life, lived, rfl⟩ := Option.map_eq_some_iff.mp taken
    have sound := sound_step unbounded agreed.sound (fun _ same => by cases same) lived
    obtain ⟨server, stepped, rfl⟩ := Option.map_eq_some_iff.mp lived
    refine ⟨sound, agreed.sobol, agreed.seen, nbFinished_le_step agreed.counted stepped, ?_⟩
    intro going
    obtain ⟨notices, outbox, pass⟩ :=
      pass_of_step (by rw [agreed.sound.commData, rank]) stepped
    dsimp only
    rw [outbox, List.drop_left, reports_append]
    exact pass_settled pass (agreed.settled going) rest

theorem agreed_checkpoint {now : ℚ} (unbounded : ∀ n, setting.codec.Fits n)
    (agreed : Agreed setting system)
    (taken : serverPass setting system (.checkpoint now) = some system') :
    Agreed setting system' := by
  unfold serverPass at taken
  split at taken
  · cases taken
  · obtain ⟨life, lived, rfl⟩ := Option.map_eq_some_iff.mp taken
    have sound := sound_step unbounded agreed.sound (fun _ same => by cases same) lived
    cases lived
    have saved : (checkpointRound setting.codec system.life now).server.outbox =
        system.life.server.outbox ∧
      statuses (checkpointRound setting.codec system.life now).server =
        statuses system.life.server ∧
      (checkpointRound setting.codec system.life now).server.nbFinishedSimulations =
        system.life.server.nbFinishedSimulations := by
      unfold checkpointRound
      split
      · exact ⟨rfl, rfl, rfl⟩
      · exact ⟨rfl, rfl, rfl⟩
    obtain ⟨outbox, same, finished⟩ := saved
    refine ⟨sound, agreed.sobol, agreed.seen, ?_, ?_⟩
    · dsimp only
      rw [nbFinished, same, finished]
      exact agreed.counted
    · intro going
      dsimp only
      rw [outbox, List.drop_length, pushed, List.filterMap_nil, List.append_nil]
      refine (agreed.settled going).mono ?_
      intro simuId status settled
      rw [Accounted, simuStatus, same]
      exact settled

theorem agreed_step {event : SystemEvent D} (rank : setting.study.commData.rank = 0)
    (single : setting.config.batchSize = 1) (unbounded : ∀ n, setting.codec.Fits n)
    (agreed : Agreed setting system) (wholesome : Wholesome setting event)
    (taken : systemStep setting system event = some system') : Agreed setting system' := by
  cases event with
  | data now m jobId =>
      obtain ⟨reply, _, passed⟩ := Option.bind_eq_some_iff.mp taken
      exact agreed_pass rank unbounded agreed (fun _ _ sent => Or.inr sent) passed
  | receive =>
      simp only [systemStep] at taken
      split at taken
      · cases taken
      · rename_i msg rest waiting
        refine agreed_pass rank unbounded agreed ?_ taken
        intro simuId jobId sent
        rw [waiting] at sent
        rcases List.mem_cons.mp sent with first | later
        · exact Or.inl (by rw [first])
        · exact Or.inr later
  | timeouts now => exact agreed_pass rank unbounded agreed (fun _ _ sent => Or.inr sent) taken
  | checkpoint now => exact agreed_checkpoint unbounded agreed taken
  | finalize =>
      simp only [systemStep] at taken
      split at taken
      · cases taken
        refine ⟨sound_written agreed.sound, agreed.sobol, agreed.seen, agreed.counted, ?_⟩
        intro going
        have silent : reports [Packet.stop] = [] := rfl
        dsimp only
        rw [reports_append, silent, List.append_nil]
        exact agreed.settled going
      · cases taken
  | restart others kept =>
      obtain ⟨life, lived, rfl⟩ := Option.map_eq_some_iff.mp taken
      have sizes (given : List (List Nat))
          (same : (LifeEvent.restart others : LifeEvent D) = .restart given) :
          ∀ statuses ∈ given, statuses.length = setting.study.options.samplingSize.toNat := by
        cases same
        exact wholesome
      have sound := sound_step unbounded agreed.sound sizes lived
      obtain ⟨server, started, rfl⟩ := Option.map_eq_some_iff.mp lived
      refine ⟨sound, agreed.sobol, agreed.seen,
        restartServer_counted rank started sound.bounded, ?_⟩
      intro _
      have first (packets : List Packet) : reports (.server :: packets) = reports packets := rfl
      dsimp only
      rw [reports_append, first]
      exact settled_restart rank started sound.simulations
        (reports (system.toLauncher.take kept)) (belief system.launcher.groups) []
  | deliver garbled =>
      simp only [systemStep] at taken
      split at taken
      · cases taken
      · rename_i packet rest waiting
        obtain ⟨launcher, handled, rfl⟩ := Option.map_eq_some_iff.mp taken
        obtain ⟨before, seen⟩ := wantStop_step handled
        refine ⟨agreed.sound, sobolGroups_step agreed.sobol handled, seen agreed.seen,
          agreed.counted, ?_⟩
        intro going
        have justified := agreed.settled (before going)
        rw [waiting] at justified
        exact settled_deliver single agreed.sobol justified handled
  | hello =>
      simp only [systemStep] at taken
      split at taken
      · cases taken
        refine ⟨agreed.sound, agreed.sobol, agreed.seen, agreed.counted, ?_⟩
        intro going
        refine (agreed.settled going).mono ?_
        intro g status settled inside ended
        rcases settled inside ended with here | ⟨jobId, sent⟩
        · exact Or.inl here
        · exact Or.inr ⟨jobId, List.mem_append_left _ sent⟩
      · cases taken
  | thread event jobId =>
      obtain ⟨launcher, own, moved, rfl⟩ := thread_step taken
      exact agreed_thread agreed own moved

/-- The launcher holds no simulation finished that the server has not counted, unless a status of
the simulation is still on its way or its DROP, of which the server would die: whatever server and
launcher have lost and however often the server was started again. So both come to the end
together. -/
theorem finished_agree {draw : Nat → List D} {groups : List (Group D)}
    {events : List (SystemEvent D)} (rank : setting.study.commData.rank = 0)
    (single : setting.config.batchSize = 1) (unbounded : ∀ n, setting.codec.Fits n)
    (positive : 0 < setting.study.options.samplingSize)
    (created : createGroupList true draw setting.study.options.samplingSize
      setting.config.batchSize = some groups)
    (wholesome : ∀ event ∈ events, Wholesome setting event)
    (reached : run (systemStep setting) (startSystem setting.study groups) events = some system)
    (going : system.launcher.server.wantStop = false) :
    (∀ g group, system.launcher.groups[g]? = some group → group.status = finished →
      (∀ status, .notice (.simuStatus g status) ∉ system.toLauncher) →
      (∀ jobId, .drop g jobId ∉ system.toServer) → 2 ≤ simuStatus system.life.server g) ∧
    ((∀ group ∈ system.launcher.groups, group.status = finished) →
      (∀ g status, .notice (.simuStatus g status) ∉ system.toLauncher) →
      (∀ g jobId, .drop g jobId ∉ system.toServer) → stopTest system.life.server = true) := by
  obtain ⟨state, done, rfl, _⟩ := sobolCreated created
  have agreed : Agreed setting system := by
    refine run_invariant_of_mem ?_ (agreed_start (sobolGroups_created created) ?_) reached
    · intro before event member after inv taken
      exact agreed_step rank single unbounded inv (wholesome event member) taken
    · intro group member
      obtain ⟨g, present⟩ := List.mem_iff_getElem?.mp member
      exact (done.new g group present).2.2.2.1
  have justified := agreed.settled going
  have number := agreed.sobol.number
  -- without a message on its way, the launcher's belief is the last word on a simulation
  have known (g : Nat) (group : Group D) (present : system.launcher.groups[g]? = some group)
      (ended : group.status = finished)
      (told : ∀ status, .notice (.simuStatus g status) ∉ system.toLauncher)
      (dropped : ∀ jobId, .drop g jobId ∉ system.toServer) :
      2 ≤ simuStatus system.life.server g := by
    obtain ⟨inside, _⟩ := List.getElem?_eq_some_iff.mp present
    have here := justified g
    rw [last_reports_none told, Option.getD_none] at here
    rcases here (by omega) (by rw [belief_of_present present, ended]) with settled | ⟨jobId, sent⟩
    · exact settled
    · exact absurd sent (dropped jobId)
  refine ⟨known, ?_⟩
  intro all told dropped
  have length := agreed.sound.simulations
  have every (g : Nat) (inside : g < setting.study.options.samplingSize.toNat) :
      2 ≤ simuStatus system.life.server g := by
    have bound : g < system.launcher.groups.length := by omega
    exact known g _ (List.getElem?_eq_getElem bound) (all _ (List.getElem_mem bound)) (told g)
      (dropped g)
  have complete : nbFinished system.life.server = setting.study.options.samplingSize.toNat := by
    have size : (statuses system.life.server).length =
        setting.study.options.samplingSize.toNat := by rw [statuses, List.length_map, length]
    rw [← size, nbFinished, List.countP_eq_length]
    intro status member
    obtain ⟨g, present⟩ := List.mem_iff_getElem?.mp member
    obtain ⟨inside, _⟩ := List.getElem?_eq_some_iff.mp present
    have large := every g (by omega)
    rw [simuStatus, List.getD_eq_getElem?_getD, present] at large
    exact decide_eq_true large
  have counted := agreed.counted
  rw [complete] at counted
  have sample := agreed.sound.sample
  rw [stopTest, Bool.and_eq_true, decide_eq_true_eq, decide_eq_true_eq]
  omega

end System

section Example

private def pairStudy : Study ℚ :=
  ⟨{ twoByTwo with samplingSize := 1, nbParameters := 2, sobolOp := true }, ⟨0, 1, 1⟩, ["heat"]⟩

private def pairSetting : Setting ℚ (Cell ℚ) :=
  { codec := exactCodec ℚ, tempSize := 0, study := pairStudy
    config := ⟨1, false, false⟩, restartGroup := true }

private def pairGroups : List (Group ℚ) :=
  (createGroupList true (fun k => [(k : ℚ), 0]) 1 1).getD []

private def pairData (now : ℚ) (timeStamp : Int) : SystemEvent ℚ :=
  .data now ⟨timeStamp, 0, 0, 1, "heat", [3, 4, 5, 6]⟩ "job"

private def mainPass (n : Nat) : List (SystemEvent ℚ) :=
  List.replicate n (.thread (.main .returns false) "job")

/-- The server dies when the launcher has been told that the group is finished, and has saved the
first time step only. -/
private def forgetful : List (SystemEvent ℚ) :=
  mainPass 7 ++ [.thread (.launch .returns) "job"] ++ mainPass 1 ++
    [.receive, pairData 1 0, .deliver 0, .checkpoint 10, pairData 11 1, .deliver 0,
      .restart [] 0, .deliver 0, .deliver 0, pairData 12 0, .deliver 0, pairData 13 1, .deliver 0]

theorem finished_agree_forgetful :
    ∃ system, run (systemStep pairSetting) (startSystem pairStudy pairGroups) forgetful =
        some system ∧
      (∀ group ∈ system.launcher.groups, group.status = finished) ∧
      stopTest system.life.server = true := by
  have reached : ((run (systemStep pairSetting) (startSystem pairStudy pairGroups) forgetful).map
      fun system => (system.launcher.groups.map Group.status, system.launcher.server.wantStop,
        system.toLauncher, system.toServer)) = some ([finished], false, [], []) := by
    decide +kernel
  obtain ⟨system, taken, parts⟩ := Option.map_eq_some_iff.mp reached
  simp only [Prod.mk.injEq] at parts
  obtain ⟨groups, going, toLauncher, toServer⟩ := parts
  have ended : ∀ group ∈ system.launcher.groups, group.status = finished := by
    intro group member
    have here := List.mem_map_of_mem (f := Group.status) member
    rw [groups] at here
    exact List.mem_singleton.mp here
  refine ⟨system, taken, ended, ?_⟩
  have wholesome : ∀ event ∈ forgetful, Wholesome pairSetting event := by
    intro event member
    cases event with
    | restart others kept =>
        simp only [forgetful, mainPass, pairData, List.replicate, List.cons_append,
          List.nil_append, List.mem_cons, List.not_mem_nil, or_false, reduceCtorEq, false_or,
          SystemEvent.restart.injEq] at member
        rw [member.1]
        exact fun statuses none_other => absurd none_other List.not_mem_nil
    | data now m jobId => trivial
    | receive => trivial
    | timeouts now => trivial
    | checkpoint now => trivial
    | finalize => trivial
    | deliver garbled => trivial
    | hello => trivial
    | thread event jobId => trivial
  have created : createGroupList true (fun k => [(k : ℚ), 0]) 1 1 = some pairGroups := by
    decide +kernel
  have sampled : 0 < pairSetting.study.options.samplingSize := by decide
  refine (finished_agree rfl rfl (fun _ => trivial) sampled created wholesome taken going).2 ended
    ?_ ?_
  · rw [toLauncher]
    exact fun _ _ => List.not_mem_nil
  · rw [toServer]
    exact fun _ _ => List.not_mem_nil

end Example

end Melissa
