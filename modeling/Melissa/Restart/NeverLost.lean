import Melissa.Restart.Kept

/-! A checkpointed contribution over all later lives of a server rank. -/

namespace Melissa

open Files Runs

section Recorded

variable {D B : Type}

/-- The file of a structure has statistics, and `read_saved_stats` finds the bit in it. -/
def Recorded [Zero D] [NatCast D] (codec : Codec D B) (tempSize : Nat) (study : Study D)
    (disk : Disk B) (fieldName : String) (clientRank simuId timeStep : Nat) : Prop :=
  let name := fileName fieldName study.commData.rank clientRank
  0 < savedVectSize codec disk name ∧
    ∃ back, readSavedStats codec tempSize study.options.restarted study.commData.rank disk fieldName
      clientRank (melissaInitData study.options emptyData (savedVectSize codec disk name)) =
        some back ∧ bitOf back simuId timeStep = true

/-- The messages of a run for one structure. -/
def messagesTo (fieldName : String) (clientRank : Nat) (events : List (LifeEvent D)) :
    List (SimuData D) :=
  events.filterMap fun
    | .pass (.data _ m _) =>
        if m.fieldName = fieldName ∧ m.clientRank = clientRank then some m else none
    | _ => none

theorem mem_messagesTo {fieldName : String} {clientRank : Nat} {events : List (LifeEvent D)}
    {m : SimuData D} (member : m ∈ messagesTo fieldName clientRank events) :
    (∃ now reply, .pass (.data now m reply) ∈ events) ∧ m.fieldName = fieldName ∧
      m.clientRank = clientRank := by
  obtain ⟨event, sent, here⟩ := List.mem_filterMap.mp member
  cases event with
  | pass event =>
      cases event with
      | data now m' reply =>
          obtain ⟨own, same⟩ := Option.ite_none_right_eq_some.mp here
          cases same
          exact ⟨⟨now, reply, sent⟩, own⟩
      | launcher msg => cases here
      | timeouts now => cases here
  | checkpoint now => cases here
  | restart others => cases here

/-- A checkpoint that is due finds the structure it writes with its statistics in memory. -/
def CheckpointSafe (fieldName : String) (clientRank : Nat) (life : Life D B) :
    LifeEvent D → Prop
  | .checkpoint now => checkpointDue life.server now = true →
      ∀ data, writtenEntry life.server.fields fieldName clientRank = some data →
        data.statsInit = true
  | _ => True

theorem savedVectSize_eq {codec : Codec D B} (unbounded : ∀ n, codec.Fits n) {options : Options D}
    {saved : MelissaData D} {disk : Disk B} {name : String}
    (bytes : disk name = some (saveData codec options saved).flatten) :
    savedVectSize codec disk name = saved.vectSize := by
  have first := reads_int (unbounded saved.vectSize) 0
  rw [savedVectSize, bytes, Option.bind_some, saveData, List.flatten_append]
  rw [first _]
  rfl

variable [Zero D] [Add D] [Sub D] [Mul D] [Div D] [NatCast D] [IntCast D]
  [Pow D ℕ] [LT D] [DecidableLT D] [LE D] [DecidableLE D] [Libm D]

/-- The message of a simulation and time step is one of `messages`, and the statistics are those
of such messages, each computed once. -/
def Counted (options : Options D) (vectSize : Nat) (messages : List (SimuData D))
    (data : MelissaData D) (simuId timeStep : Nat) : Prop :=
  ∃ past, (∀ m ∈ past, m ∈ messages) ∧
    (∃ m ∈ past, m.simuId = simuId ∧ m.timeStamp = (timeStep : Int)) ∧
    ∀ t < options.nbTimeSteps, keptStats vectSize (stepStats data t) =
      keptStats vectSize ((firstMessages past t).foldl (contribute options vectSize)
        (stepStats (melissaInitData options emptyData vectSize) t))

variable {codec : Codec D B} {study : Study D} {vectSize clientRank simuId timeStep : Nat}
  {fieldName : String} {messages : List (SimuData D)} {life : Life D B}

theorem recorded_iff (unbounded : ∀ n, codec.Fits n) (tempSize : Nat) {saved : MelissaData D}
    {savedPast : List (SimuData D)}
    (file : InFile codec study.options vectSize saved savedPast
      (life.disk (fileName fieldName study.commData.rank clientRank))) :
    Recorded codec tempSize study life.disk fieldName clientRank simuId timeStep ↔
      0 < saved.vectSize ∧ bitOf saved simuId timeStep = true := by
  have size : savedVectSize codec life.disk
      (fileName fieldName study.commData.rank clientRank) = saved.vectSize := by
    rcases file.bytes with bytes | ⟨missing, none_saved⟩
    · exact savedVectSize_eq unbounded bytes
    · rw [savedVectSize, missing, none_saved]
      rfl
  simp only [Recorded, size]
  refine and_congr_right fun some_saved => ?_
  rw [(file.replay some_saved).size, readSavedStats_saved file some_saved tempSize,
    ← bitOf_restored study.options saved]
  simp

/-- The bit of a simulation and time step is in the file, and in memory as soon as the structure
has statistics. -/
def Keeps (codec : Codec D B) (tempSize : Nat) (study : Study D) (vectSize : Nat)
    (fieldName : String) (clientRank : Nat) (messages : List (SimuData D)) (simuId timeStep : Nat)
    (life : Life D B) : Prop :=
  Recorded codec tempSize study life.disk fieldName clientRank simuId timeStep ∧
    ∀ data, entryAt life.server fieldName clientRank = some data → data.statsInit = true →
      bitOf data simuId timeStep = true ∧
        Counted study.options vectSize messages data simuId timeStep

/-- What the file holds is also in memory. -/
theorem keeps_iff_recorded (unbounded : ∀ n, codec.Fits n) (tempSize : Nat)
    (below : timeStep < study.options.nbTimeSteps)
    (tracked : IsTracked codec study vectSize fieldName clientRank messages life) :
    Keeps codec tempSize study vectSize fieldName clientRank messages simuId timeStep life ↔
      Recorded codec tempSize study life.disk fieldName clientRank simuId timeStep := by
  refine ⟨fun keeps => keeps.1, fun recorded => ⟨recorded, ?_⟩⟩
  obtain ⟨data, saved, past, savedPast, tracked⟩ := tracked
  intro data' entry initialised
  rw [tracked.entry] at entry
  cases entry
  obtain ⟨some_saved, set⟩ := (recorded_iff unbounded tempSize tracked.file).mp recorded
  obtain ⟨room, all⟩ := tracked.kept some_saved initialised
  obtain ⟨m, member, own⟩ := ((tracked.file.replay some_saved).bits _ _ below).mp set
  have replay := tracked.memory.replay room
  exact ⟨(replay.bits _ _ below).mpr ⟨m, all m member, own⟩, past, tracked.received,
    ⟨m, all m member, own⟩, replay.stats⟩

/-- The file keeps the bit over a step exactly when the step is no checkpoint without the
structure in memory. -/
theorem recorded_step_iff (unbounded : ∀ n, codec.Fits n) {tempSize : Nat} {event : LifeEvent D}
    {life' : Life D B} (below : timeStep < study.options.nbTimeSteps)
    (sound : Sound codec study life)
    (tracked : IsTracked codec study vectSize fieldName clientRank messages life)
    (recorded : Recorded codec tempSize study life.disk fieldName clientRank simuId timeStep)
    (taken : lifeStep codec tempSize study life event = some life') :
    Recorded codec tempSize study life'.disk fieldName clientRank simuId timeStep ↔
      CheckpointSafe fieldName clientRank life event := by
  cases event with
  | pass event =>
      obtain ⟨server, _, rfl⟩ := Option.map_eq_some_iff.mp taken
      exact iff_of_true recorded trivial
  | restart others =>
      obtain ⟨server, _, rfl⟩ := Option.map_eq_some_iff.mp taken
      exact iff_of_true recorded trivial
  | checkpoint now =>
      cases taken
      obtain ⟨data, saved, past, savedPast, tracked⟩ := tracked
      by_cases due : checkpointDue life.server now = true
      · obtain ⟨data', written⟩ := writtenEntry_isSome (isEntry_of_entryAt tracked.entry)
        have tracked' := tracked_checkpoint sound tracked due written
        have safe : CheckpointSafe fieldName clientRank life (.checkpoint now) ↔
            data'.statsInit = true := by
          simp [CheckpointSafe, due, written]
        rw [safe, recorded_iff unbounded tempSize tracked'.file]
        constructor
        · intro still
          exact (tracked'.file.replay still.1).statsInit
        · intro initialised
          have own : data' = data := by
            rcases writtenEntry_cases sound tracked.entry written with own | rfl
            · exact own
            · cases initialised
          subst own
          obtain ⟨some_saved, set⟩ := (recorded_iff unbounded tempSize tracked.file).mp recorded
          obtain ⟨room, all⟩ := tracked.kept some_saved initialised
          obtain ⟨m, member, own⟩ := ((tracked.file.replay some_saved).bits _ _ below).mp set
          exact ⟨room, ((tracked.memory.replay room).bits _ _ below).mpr ⟨m, all m member, own⟩⟩
      · rw [checkpointRound, if_neg due]
        exact iff_of_true recorded fun absurd_due => absurd absurd_due due

end Recorded

section NeverLost

variable {D : Type}

/-- The messages of the structure have one size, and all ranks have the same simulations. -/
structure Consistent (study : Study D) (vectSize : Nat) (fieldName : String) (clientRank : Nat)
    (events : List (LifeEvent D)) : Prop where
  sizes : ∀ m ∈ messagesTo fieldName clientRank events, m.vectSize = vectSize
  others : ∀ others, .restart others ∈ events →
    ∀ statuses ∈ others, statuses.length = study.options.samplingSize.toNat

theorem consistent_of_sizes {study : Study D} {vectSize : Nat} {events : List (LifeEvent D)}
    (sizes : ∀ now m reply, .pass (.data now m reply) ∈ events → m.vectSize = vectSize)
    (others : ∀ others, .restart others ∈ events →
      ∀ statuses ∈ others, statuses.length = study.options.samplingSize.toNat)
    (fieldName : String) (clientRank : Nat) :
    Consistent study vectSize fieldName clientRank events := by
  refine ⟨?_, others⟩
  intro m member
  obtain ⟨event, sent, here⟩ := List.mem_filterMap.mp member
  match event, sent, here with
  | .pass (.data now m' reply), sent, here =>
      obtain ⟨_, same⟩ := Option.ite_none_right_eq_some.mp here
      rw [← Option.some.inj same]
      exact sizes now m' reply sent

theorem arrives_of_mem {study : Study D} {vectSize clientRank : Nat} {fieldName : String}
    {events : List (LifeEvent D)}
    (consistent : Consistent study vectSize fieldName clientRank events)
    {event : LifeEvent D} (member : event ∈ events) :
    Arrives vectSize fieldName clientRank (messagesTo fieldName clientRank events) event := by
  match event, member with
  | .pass (.data now m reply), member =>
      intro sameField sameRank
      have sent : m ∈ messagesTo fieldName clientRank events :=
        List.mem_filterMap.mpr ⟨_, member, if_pos ⟨sameField, sameRank⟩⟩
      exact ⟨consistent.sizes m sent, sent⟩
  | .pass (.launcher _), _ => trivial
  | .pass (.timeouts _), _ => trivial
  | .checkpoint _, _ => trivial
  | .restart _, _ => trivial

variable [Zero D] [Add D] [Sub D] [Mul D] [Div D] [NatCast D] [IntCast D]
  [Pow D ℕ] [LT D] [DecidableLT D] [LE D] [DecidableLE D] [Libm D]

/-- The invariant of all lives, for one structure and the messages of a whole run. -/
structure Followed {B : Type} (codec : Codec D B) (study : Study D) (vectSize : Nat)
    (fieldName : String) (clientRank : Nat) (messages : List (SimuData D)) (life : Life D B) :
    Prop where
  sound : Sound codec study life
  tracked : IsTracked codec study vectSize fieldName clientRank messages life

variable {B : Type} {codec : Codec D B} {study : Study D} {vectSize clientRank : Nat}
  {fieldName : String} {events : List (LifeEvent D)}

theorem followed_firstLife (known : fieldName ∈ study.names)
    (inside : clientRank < study.commData.clientCommSize) (messages : List (SimuData D)) :
    Followed codec study vectSize fieldName clientRank messages (firstLife study) :=
  ⟨sound_firstLife codec study, _, _, _, _, tracked_firstLife codec vectSize messages known inside⟩

theorem followed_step (unbounded : ∀ n, codec.Fits n) {tempSize : Nat} {life life' : Life D B}
    {event : LifeEvent D} (known : fieldName ∈ study.names)
    (inside : clientRank < study.commData.clientCommSize)
    (consistent : Consistent study vectSize fieldName clientRank events) (member : event ∈ events)
    (followed : Followed codec study vectSize fieldName clientRank
      (messagesTo fieldName clientRank events) life)
    (taken : lifeStep codec tempSize study life event = some life') :
    Followed codec study vectSize fieldName clientRank (messagesTo fieldName clientRank events)
      life' := by
  have sizes (others : List (List Nat)) (here : event = .restart others) :=
    consistent.others others (here ▸ member)
  exact ⟨sound_step unbounded followed.sound sizes taken, tracked_step unbounded known inside
    followed.sound followed.tracked (arrives_of_mem consistent member) sizes taken⟩

/-- What a checkpoint has recorded is kept exactly as long as every later checkpoint finds the
structure initialised. -/
theorem checkpointKept_iff (tempSize : Nat) (study : Study D) (vectSize : Nat) (fieldName : String)
    (clientRank simuId timeStep : Nat) (before after : List (LifeEvent D))
    (mid : Life D (Cell D)) (known : fieldName ∈ study.names)
    (inside : clientRank < study.commData.clientCommSize)
    (below : timeStep < study.options.nbTimeSteps)
    (consistent : Consistent study vectSize fieldName clientRank (before ++ after))
    (reached : run (lifeStep (exactCodec D) tempSize study) (firstLife study) before = some mid)
    (recorded : Recorded (exactCodec D) tempSize study mid.disk fieldName clientRank simuId
      timeStep) :
    Keeps (exactCodec D) tempSize study vectSize fieldName clientRank
        (messagesTo fieldName clientRank (before ++ after)) simuId timeStep mid ∧
      (Along (lifeStep (exactCodec D) tempSize study)
          (fun _ _ life => Keeps (exactCodec D) tempSize study vectSize fieldName clientRank
            (messagesTo fieldName clientRank (before ++ after)) simuId timeStep life) mid after ↔
        Along (lifeStep (exactCodec D) tempSize study)
          (fun life event _ => CheckpointSafe fieldName clientRank life event) mid after) := by
  have unbounded : ∀ n, (exactCodec D).Fits n := fun _ => trivial
  have followed : Followed (exactCodec D) study vectSize fieldName clientRank
      (messagesTo fieldName clientRank (before ++ after)) mid := by
    refine run_invariant_of_mem ?_ (followed_firstLife known inside _) reached
    intro life event member life' inv taken
    exact followed_step unbounded known inside consistent (List.mem_append_left _ member) inv taken
  refine ⟨(keeps_iff_recorded unbounded tempSize below followed.tracked).mpr recorded, ?_⟩
  refine along_congr (fun life =>
    Followed (exactCodec D) study vectSize fieldName clientRank
        (messagesTo fieldName clientRank (before ++ after)) life ∧
      Recorded (exactCodec D) tempSize study life.disk fieldName clientRank simuId timeStep)
    ?_ ?_ ⟨followed, recorded⟩
  · intro life event member life' inv taken
    have inv' := followed_step unbounded known inside consistent (List.mem_append_right _ member)
      inv.1 taken
    rw [keeps_iff_recorded unbounded tempSize below inv'.tracked]
    exact recorded_step_iff unbounded below inv.1.sound inv.1.tracked inv.2 taken
  · intro life event member life' inv taken keeps
    exact ⟨followed_step unbounded known inside consistent (List.mem_append_right _ member) inv.1
      taken, keeps.1⟩

end NeverLost

section Example

private def heatStudy : Study ℚ := ⟨twoByTwo, ⟨0, 1, 2⟩, ["heat"]⟩

private def heatMessage (now : ℚ) (simuId clientRank : Nat) : LifeEvent ℚ :=
  .pass (.data now ⟨0, simuId, clientRank, 1, "heat", [3]⟩ ⟨simuId, "job", [1]⟩)

private def firstDay : List (LifeEvent ℚ) :=
  [heatMessage 1 0 0, heatMessage 2 0 1, .checkpoint 10]

private def secondDay : List (LifeEvent ℚ) :=
  [.restart [], heatMessage 1 1 0, .checkpoint 10]

private theorem consistent_days (clientRank : Nat) :
    Consistent heatStudy 1 "heat" clientRank (firstDay ++ secondDay) := by
  apply consistent_of_sizes
  · intro now m reply sent
    simp only [firstDay, secondDay, heatMessage, List.cons_append, List.nil_append, List.mem_cons,
      List.not_mem_nil, or_false, reduceCtorEq, false_or, LifeEvent.pass.injEq,
      Event.data.injEq] at sent
    rcases sent with ⟨_, rfl, _⟩ | ⟨_, rfl, _⟩ | ⟨_, rfl, _⟩
    · rfl
    · rfl
    · rfl
  · intro others sent statuses member
    simp only [firstDay, secondDay, heatMessage, List.cons_append, List.nil_append, List.mem_cons,
      List.not_mem_nil, or_false, reduceCtorEq, false_or, LifeEvent.restart.injEq] at sent
    rw [sent] at member
    cases member

private theorem firstDay_recorded (clientRank : Nat) (either : clientRank = 0 ∨ clientRank = 1) :
    ∃ mid, run (lifeStep (exactCodec ℚ) 0 heatStudy) (firstLife heatStudy) firstDay = some mid ∧
      Recorded (exactCodec ℚ) 0 heatStudy mid.disk "heat" clientRank 0 0 := by
  obtain ⟨mid, reached⟩ := Option.isSome_iff_exists.mp (show (run (lifeStep (exactCodec ℚ) 0
    heatStudy) (firstLife heatStudy) firstDay).isSome = true by decide +kernel)
  have size : ((run (lifeStep (exactCodec ℚ) 0 heatStudy) (firstLife heatStudy) firstDay).map
      fun mid => savedVectSize (exactCodec ℚ) mid.disk (fileName "heat" 0 clientRank)) =
        some 1 := by
    rcases either with rfl | rfl <;> decide +kernel
  have bit : ((run (lifeStep (exactCodec ℚ) 0 heatStudy) (firstLife heatStudy) firstDay).bind
      fun mid => (readSavedStats (exactCodec ℚ) 0 heatStudy.options.restarted 0 mid.disk "heat"
        clientRank (melissaInitData twoByTwo emptyData 1)).map fun back => bitOf back 0 0) =
          some true := by
    rcases either with rfl | rfl <;> decide +kernel
  rw [reached] at size bit
  have size' := Option.some.inj size
  obtain ⟨back, read, set⟩ := Option.map_eq_some_iff.mp bit
  refine ⟨mid, reached, ?_⟩
  rw [Recorded]
  simp only [heatStudy] at size' read ⊢
  rw [size']
  exact ⟨by decide, back, read, set⟩

theorem checkpointKept_iff_twoRanks :
    ∃ mid, run (lifeStep (exactCodec ℚ) 0 heatStudy) (firstLife heatStudy) firstDay = some mid ∧
      Keeps (exactCodec ℚ) 0 heatStudy 1 "heat" 0 (messagesTo "heat" 0 (firstDay ++ secondDay)) 0 0
        mid ∧
      (Along (lifeStep (exactCodec ℚ) 0 heatStudy)
          (fun _ _ life => Keeps (exactCodec ℚ) 0 heatStudy 1 "heat" 0
            (messagesTo "heat" 0 (firstDay ++ secondDay)) 0 0 life) mid secondDay ↔
        Along (lifeStep (exactCodec ℚ) 0 heatStudy)
          (fun life event _ => CheckpointSafe "heat" 0 life event) mid secondDay) := by
  obtain ⟨mid, reached, recorded⟩ := firstDay_recorded 0 (Or.inl rfl)
  exact ⟨mid, reached, checkpointKept_iff 0 heatStudy 1 "heat" 0 0 0 firstDay secondDay mid
    (by decide) (by decide) (by decide) (consistent_days 0) reached recorded⟩

/-- After the restart client rank 0 speaks first, and a checkpoint is due before client rank 1
has spoken: the file of client rank 1 is emptied. -/
theorem not_checkpointKept_twoRanks :
    ¬ ∀ (tempSize : Nat) (study : Study ℚ) (vectSize : Nat) (fieldName : String)
      (clientRank simuId timeStep : Nat) (before after : List (LifeEvent ℚ))
      (mid : Life ℚ (Cell ℚ)), fieldName ∈ study.names →
      clientRank < study.commData.clientCommSize → timeStep < study.options.nbTimeSteps →
      Consistent study vectSize fieldName clientRank (before ++ after) →
      run (lifeStep (exactCodec ℚ) tempSize study) (firstLife study) before = some mid →
      Recorded (exactCodec ℚ) tempSize study mid.disk fieldName clientRank simuId timeStep →
      Along (lifeStep (exactCodec ℚ) tempSize study)
        (fun _ _ life => Keeps (exactCodec ℚ) tempSize study vectSize fieldName clientRank
          (messagesTo fieldName clientRank (before ++ after)) simuId timeStep life) mid after := by
  intro never_lost
  obtain ⟨mid, reached, recorded⟩ := firstDay_recorded 1 (Or.inr rfl)
  have along := never_lost 0 heatStudy 1 "heat" 1 0 0 firstDay secondDay mid (by decide) (by decide)
    (by decide) (consistent_days 1) reached recorded
  have size : ((run (lifeStep (exactCodec ℚ) 0 heatStudy) (firstLife heatStudy)
      (firstDay ++ secondDay)).map
        fun last => savedVectSize (exactCodec ℚ) last.disk (fileName "heat" 0 1)) = some 0 := by
    decide +kernel
  rw [run_append, reached, Option.bind_some] at size
  obtain ⟨last, onward, emptied⟩ := Option.map_eq_some_iff.mp size
  obtain ⟨between, front, saved⟩ := run_concat_eq_some.mp
    (show run (lifeStep (exactCodec ℚ) 0 heatStudy) mid
      ([.restart [], heatMessage 1 1 0] ++ [.checkpoint 10]) = some last from onward)
  have kept := along_iff.mp along [.restart [], heatMessage 1 1 0] (.checkpoint 10) [] between last
    rfl front saved
  have room : 0 < savedVectSize (exactCodec ℚ) last.disk (fileName "heat" 0 1) := kept.1.1
  rw [emptied] at room
  exact absurd room (by decide)

end Example

end Melissa
