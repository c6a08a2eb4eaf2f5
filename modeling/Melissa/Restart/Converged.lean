import Melissa.Restart.FirstConnection
import Melissa.Restart.NeverLost

/-! The convergence of the Sobol indices as a server rank reports it. Nothing computes the
confidence intervals that the test reads: over all lives they are those of a new structure, so no
field ever converges. -/

namespace Melissa

open Files Runs

section Check

variable {D : Type}

/-- `confidence_interval` of parameter `j` at time step `i`. -/
def confidenceAt (sobolArray : List (SobolArray D)) (i j : Nat) : Option (D × D) :=
  sobolArray[i]?.bind fun array => array.sobolMartinez[j]?.map SobolMartinez.confidenceInterval

variable [LT D] [DecidableLT D]

/-- The tests of `check_convergence_sobol_martinez`, up to the first one that fails. -/
def testIntervals (confidenceValue : D) : List (Option (D × D)) → Option Nat
  | [] => some 1
  | interval :: rest => interval.bind fun interval =>
      if interval.1 > confidenceValue then some 0
      else if interval.2 > confidenceValue then some 0
      else testIntervals confidenceValue rest

def checkConvergenceSobolMartinez (sobolArray : List (SobolArray D)) (confidenceValue : D)
    (nbTimeSteps nbParameters : Nat) : Option Nat :=
  testIntervals confidenceValue ((List.range nbTimeSteps).flatMap fun i =>
    (List.range nbParameters).map (confidenceAt sobolArray i))

/-- The first interval decides. -/
theorem checkConvergence_wide {sobolArray : List (SobolArray D)} {confidenceValue : D}
    {nbTimeSteps nbParameters : Nat} {interval : D × D} (steps : 0 < nbTimeSteps)
    (parameters : 0 < nbParameters) (first : confidenceAt sobolArray 0 0 = some interval)
    (wide : interval.1 > confidenceValue) :
    checkConvergenceSobolMartinez sobolArray confidenceValue nbTimeSteps nbParameters = some 0 := by
  obtain ⟨nbTimeSteps, rfl⟩ := Nat.exists_eq_succ_of_ne_zero (Nat.ne_of_gt steps)
  obtain ⟨nbParameters, rfl⟩ := Nat.exists_eq_succ_of_ne_zero (Nat.ne_of_gt parameters)
  simp only [checkConvergenceSobolMartinez, List.range_succ_eq_map, List.flatMap_cons,
    List.map_cons, List.cons_append, testIntervals, first, Option.bind_some, if_pos wide]

end Check

section Watch

variable {D B : Type}

/-- A server rank with its count of converged fields and of the messages `converged` it has sent.
`connected` says that `first_init` is 0. -/
structure Watch (D B : Type) where
  life : Life D B
  connected : Bool
  nbConvergedFields : Nat
  converged : Nat

def firstWatch (study : Study D) : Watch D B :=
  { life := firstLife study, connected := false, nbConvergedFields := 0, converged := 0 }

/-- What the passes of the main loop consist of, cut into pieces: the work of a pass, the first
connection, and the test at the end of a pass that does not leave the loop before. -/
inductive WatchEvent (D : Type) where
  | work (event : LifeEvent D)
  | connect
  | endOfPass

def WatchEvent.workOf : WatchEvent D → Option (LifeEvent D)
  | .work event => some event
  | .connect => none
  | .endOfPass => none

/-- The work of all passes. -/
def worksOf (events : List (WatchEvent D)) : List (LifeEvent D) :=
  events.filterMap WatchEvent.workOf

/-- The test at the end of a pass. The product is one of two `int` in the source. -/
def convergedTest (server : Server D) (nbConvergedFields : Nat) : Bool :=
  decide (nbConvergedFields ≥ server.fields.length * server.localNbMessages) &&
    server.options.sobolOp && decide (server.nbFinishedSimulations > 1)

/-- Clients send data when they are connected, and a new life has to be connected to again. -/
def connectedAfter (connected : Bool) : LifeEvent D → Option Bool
  | .pass (.data _ _ _) => if connected then some true else none
  | .restart _ => some false
  | _ => some connected

variable [Zero D] [Add D] [Sub D] [Mul D] [Div D] [NatCast D] [IntCast D]
  [Pow D ℕ] [LT D] [DecidableLT D] [LE D] [DecidableLE D] [Libm D]

/-- The bound on the confidence intervals, 0.01. -/
def convergedBound : D := ((1 : ℕ) : D) / ((100 : ℕ) : D)

/-- What a message adds to `nb_converged_fields`: nothing, unless its values are computed in a Sobol
study. -/
def newlyConverged (restore : Restore D) (server : Server D) (m : SimuData D) (fieldId : Nat) :
    Option Nat := do
  let server := growSimulations (countFirstSend server fieldId m.clientRank) m.simuId
  let data ← entryOf server.fields fieldId m.clientRank
  let loaded ← lazyInit (restore m.fieldName m.clientRank) server.options data m.vectSize
  let data := growStepSimu server.options loaded m.simuId
  let bits ← data.stepSimu[m.simuId]?
  if testBit bits m.timeStamp.toNat || m.vectSize == 0 || !server.options.sobolOp then some 0
  else do
    let computed ← computeMessage server.options data m
    checkConvergenceSobolMartinez computed.sobolIndices convergedBound server.options.nbTimeSteps
      server.options.nbParameters

/-- `nb_converged_fields` after what a pass has found. -/
def countConverged (codec : Codec D B) (tempSize : Nat) (watch : Watch D B) :
    LifeEvent D → Option Nat
  | .pass (.data _ m _) =>
      match admittedField watch.life.server m with
      | none => some watch.nbConvergedFields
      | some fieldId =>
          let restore := readSavedStats codec tempSize watch.life.server.options
            watch.life.server.commData.rank watch.life.disk
          (newlyConverged restore watch.life.server m fieldId).map (watch.nbConvergedFields + ·)
  | .pass _ => some watch.nbConvergedFields
  | .checkpoint _ => some watch.nbConvergedFields
  | .restart _ => some 0

def watchStep (codec : Codec D B) (tempSize : Nat) (study : Study D) (watch : Watch D B) :
    WatchEvent D → Option (Watch D B)
  | .work event => do
      let connected ← connectedAfter watch.connected event
      let life ← lifeStep codec tempSize study watch.life event
      let nbConvergedFields ← countConverged codec tempSize watch event
      some { watch with
        life := life, connected := connected, nbConvergedFields := nbConvergedFields }
  | .connect => some { watch with connected := true }
  | .endOfPass =>
      some { watch with
        converged := if watch.connected && convergedTest watch.life.server watch.nbConvergedFields
          then watch.converged + 1 else watch.converged }

end Watch

section Intervals

variable {D : Type}

/-- The confidence intervals of a time step. -/
def intervalsOf (stats : StepStats D) : Option (List (D × D)) :=
  stats.sobolIndices.map fun array => array.sobolMartinez.map SobolMartinez.confidenceInterval

/-- The confidence intervals are those of a new structure. -/
def NeverComputed [NatCast D] (options : Options D) (data : MelissaData D) : Prop :=
  ∀ t < options.nbTimeSteps, intervalsOf (stepStats data t) =
    some (List.replicate options.nbParameters (((1 : ℕ) : D), ((1 : ℕ) : D)))

theorem confidenceAt_neverComputed [NatCast D] {options : Options D} {data : MelissaData D}
    (never : NeverComputed options data) (steps : 0 < options.nbTimeSteps)
    (parameters : 0 < options.nbParameters) :
    confidenceAt data.sobolIndices 0 0 = some (((1 : ℕ) : D), ((1 : ℕ) : D)) := by
  obtain ⟨array, here, intervals⟩ := Option.map_eq_some_iff.mp (never 0 steps)
  have present : data.sobolIndices[0]? = some array := here
  have first := congrArg (fun intervals => intervals[0]?) intervals
  simp only [List.getElem?_map, List.getElem?_replicate, if_pos parameters] at first
  rw [confidenceAt, present, Option.bind_some, first]

variable [Zero D] [NatCast D]

theorem neverComputed_new {options : Options D} (sobol : options.sobolOp = true) {vectSize : Nat}
    (positive : 0 < vectSize) :
    NeverComputed options (melissaInitData options emptyData vectSize) := by
  intro t step
  rw [melissaInitData_eq options positive]
  simp [intervalsOf, stepStats, sobol, step, initSobolMartinez]

variable [Add D] [Sub D] [Mul D] [Div D] [LT D] [DecidableLT D] [Libm D]

theorem intervalsOf_updateSobol (vectSize : Nat) (inVectTab : List (List D))
    (stats : StepStats D) : intervalsOf (updateSobol vectSize inVectTab stats) =
      intervalsOf stats := by
  simp only [intervalsOf, updateSobol, Option.map_map]
  congr 1
  funext array
  apply List.ext_getElem?
  intro j
  simp only [Function.comp_apply, incrementSobolMartinez, List.getElem?_map, List.getElem?_mapIdx,
    Option.map_map]
  rfl

variable [IntCast D] [Pow D ℕ] [LE D] [DecidableLE D]

/-- A message does not touch the confidence intervals. -/
theorem intervalsOf_contribute (options : Options D) (vectSize : Nat) (stats : StepStats D)
    (m : SimuData D) : intervalsOf (contribute options vectSize stats m) = intervalsOf stats := by
  have vector (simuId : Nat) (inVect : List D) (stats : StepStats D) :
      intervalsOf (updateVector options vectSize simuId inVect stats) = intervalsOf stats := rfl
  unfold contribute updateStep
  dsimp only
  split
  · rw [vector, intervalsOf_updateSobol, vector]
  · exact vector _ _ stats

/-- A record of messages still has the confidence intervals of a new structure. -/
theorem neverComputed_replay {B : Type} {codec : Codec D B} {options : Options D}
    {nbSimu vectSize : Nat} {past : List (SimuData D)} {data : MelissaData D}
    (sobol : options.sobolOp = true) (positive : 0 < vectSize)
    (replay : Replay codec options nbSimu vectSize past data) : NeverComputed options data := by
  intro t step
  have forgets (stats : StepStats D) :
      intervalsOf (keptStats vectSize stats) = intervalsOf stats := rfl
  have computed (messages : List (SimuData D)) (stats : StepStats D) :
      intervalsOf (messages.foldl (contribute options vectSize) stats) = intervalsOf stats := by
    induction messages generalizing stats with
    | nil => rfl
    | cons m rest ih => rw [List.foldl_cons, ih, intervalsOf_contribute]
  calc intervalsOf (stepStats data t)
      = intervalsOf (keptStats vectSize (stepStats data t)) := (forgets _).symm
    _ = intervalsOf ((firstMessages past t).foldl (contribute options vectSize)
          (stepStats (melissaInitData options emptyData vectSize) t)) := by
        rw [replay.stats t step, forgets]
    _ = intervalsOf (stepStats (melissaInitData options emptyData vectSize) t) := computed _ _
    _ = some (List.replicate options.nbParameters (((1 : ℕ) : D), ((1 : ℕ) : D))) :=
        neverComputed_new sobol positive t step

/-- An update leaves the confidence intervals alone, before and after the bit of the message is
set. -/
theorem intervalsOf_computeMessage {options : Options D} {data computed : MelissaData D}
    {m : SimuData D} (done : computeMessage options data m = some computed) (t : Nat) :
    intervalsOf (stepStats computed t) = intervalsOf (stepStats data t) := by
  unfold computeMessage at done
  split at done
  · rw [stepStats_computeStats done]
    split
    · exact intervalsOf_contribute options data.vectSize (stepStats data t) m
    · rfl
  · cases done
    rfl

theorem neverComputed_accumulate {options given : Options D} {data updated : MelissaData D}
    {m : SimuData D} (never : NeverComputed options data)
    (taken : accumulate given data m = some updated) : NeverComputed options updated := by
  intro t step
  rw [← never t step]
  obtain ⟨_, cases⟩ := accumulate_cases taken
  rcases cases with ⟨_, rfl⟩ | ⟨_, computed, done, rfl⟩
  · rfl
  · exact intervalsOf_computeMessage done t

end Intervals

section Unconverged

variable {D B : Type}

variable [Zero D] [Add D] [Sub D] [Mul D] [Div D] [NatCast D] [IntCast D]
  [Pow D ℕ] [LT D] [DecidableLT D] [LE D] [DecidableLE D] [Libm D] {codec : Codec D B}

/-- What a structure is loaded from has the confidence intervals of a new one, be it memory or a
file. -/
theorem neverComputed_load (unbounded : ∀ n, codec.Fits n) {options : Options D}
    {restart vectSize rank clientRank tempSize : Nat} (start : restart ≤ 1)
    {data loaded saved : MelissaData D} {past savedPast : List (SimuData D)} {disk : Disk B}
    {fieldName : String} (sobol : options.sobolOp = true)
    (memory : InMemory codec options vectSize past data)
    (file : InFile codec options vectSize saved savedPast
      (disk (fileName fieldName rank clientRank)))
    (never : data.statsInit = true → NeverComputed options data)
    (load : lazyInit
      (readSavedStats codec tempSize { options with restart := restart } rank disk fieldName
        clientRank) { options with restart := restart } data vectSize = some loaded)
    (initialised : loaded.statsInit = true) : NeverComputed options loaded := by
  cases before : data.statsInit with
  | true =>
      have unchanged : loaded = data := by
        simp only [lazyInit, before, memory.steps before, Bool.true_eq_false, false_and,
          if_false, Option.some.injEq] at load
        exact load.symm
      rw [unchanged]
      exact never before
  | false =>
      rcases Nat.eq_zero_or_pos vectSize with silent | positive
      · subst silent
        have absent := (lazyInit_silent before (memory.fresh before).1 load).2
        rw [initialised] at absent
        cases absent
      · have empty := (memory.fresh before).2 positive
        subst empty
        replace load := lazyInit_passed load
        rw [if_pos ⟨before, positive⟩] at load
        have new : NeverComputed options (melissaInitData options emptyData vectSize) :=
          neverComputed_new sobol positive
        by_cases first : restart = 0
        · subst first
          cases load
          exact new
        · have again : restart = 1 := by omega
          subst again
          change readSavedStats codec tempSize options.restarted rank disk fieldName clientRank
            (melissaInitData options emptyData vectSize) = some loaded at load
          rcases Nat.eq_zero_or_pos saved.vectSize with none_saved | some_saved
          · rcases readSavedStats_empty unbounded file none_saved load with rfl | rfl
            · exact new
            · exact new
          · cases Option.some.inj ((readSavedStats_saved file some_saved tempSize).symm.trans load)
            exact neverComputed_replay sobol positive
              (replay_restored unbounded rfl (file.replay some_saved))

/-- What all lives of a Sobol study keep. `size` are the sizes of the structures, `messages` those
of the whole run. -/
structure Unconverged (codec : Codec D B) (study : Study D) (size : String → Nat → Nat)
    (messages : String → Nat → List (SimuData D)) (life : Life D B) : Prop where
  sound : Sound codec study life
  tracked : ∀ name ∈ study.names, ∀ rank < study.commData.clientCommSize,
    IsTracked codec study (size name rank) name rank (messages name rank) life
  inside : ∀ fieldId rank, (entryOf life.server.fields fieldId rank).isSome = true →
    rank < study.commData.clientCommSize
  never : ∀ fieldId rank data, entryOf life.server.fields fieldId rank = some data →
    data.statsInit = true → NeverComputed study.options data

variable {study : Study D} {size : String → Nat → Nat}
  {messages : String → Nat → List (SimuData D)} {life : Life D B}

theorem unconverged_firstLife (codec : Codec D B) (study : Study D) (size : String → Nat → Nat)
    (messages : String → Nat → List (SimuData D)) :
    Unconverged codec study size messages (firstLife study) := by
  have empty {fieldId rank : Nat} {data : MelissaData D}
      (present : entryOf (firstLife study : Life D B).server.fields fieldId rank = some data) :
      rank < study.commData.clientCommSize ∧ data = emptyData := entryOf_emptyFields_cases present
  refine ⟨sound_firstLife codec study, ?_, ?_, ?_⟩
  · intro name known rank inside
    exact ⟨_, _, _, _, tracked_firstLife codec (size name rank) (messages name rank) known inside⟩
  · intro fieldId rank present
    obtain ⟨data, present⟩ := Option.isSome_iff_exists.mp present
    exact (empty present).1
  · intro fieldId rank data present initialised
    rw [(empty present).2] at initialised
    cases initialised

/-- A message goes to a structure that keeps the confidence intervals. -/
theorem neverComputed_accepted (unbounded : ∀ n, codec.Fits n) {tempSize status fieldId : Nat}
    {server : Server D} {m : SimuData D} {reply : Job D} {simu : Simulation D}
    {data loaded updated : MelissaData D} (sobol : study.options.sobolOp = true)
    (unconverged : Unconverged codec study size messages life)
    (sized : m.vectSize = size m.fieldName m.clientRank)
    (admitted : Admitted life.server m fieldId)
    (accepted : Accepted (readSavedStats codec tempSize life.server.options
      life.server.commData.rank life.disk) life.server m reply fieldId server simu data loaded
        updated status) :
    (0 < m.vectSize → loaded.statsInit = true) ∧
      (loaded.statsInit = true → NeverComputed study.options loaded) := by
  have sound := unconverged.sound
  have inside := unconverged.inside fieldId m.clientRank (by rw [accepted.entry]; rfl)
  have known : m.fieldName ∈ study.names := by
    have place := getFieldId_spec admitted.2.2
    rw [sound.names] at place
    exact List.mem_of_getElem? place
  obtain ⟨data', saved, past, savedPast, tracked⟩ := unconverged.tracked m.fieldName known
    m.clientRank inside
  have entry := tracked.entry
  rw [entryAt, admitted.2.2, Option.bind_some, accepted.entry] at entry
  cases entry
  obtain ⟨present, _⟩ := List.getElem?_eq_some_iff.mp accepted.simulation
  have options := options_eq sound (by rw [← sound.simulations]; omega)
  have load := accepted.load
  rw [options, sized, sound.commData] at load
  obtain ⟨_, _, statsInit, _⟩ := load_cases unbounded sound.restart tracked.memory tracked.file
    tracked.kept tracked.resident load
  refine ⟨fun positive => statsInit (by rw [← sized]; exact positive), fun initialised => ?_⟩
  exact neverComputed_load unbounded sound.restart sobol tracked.memory tracked.file
    (unconverged.never fieldId m.clientRank data accepted.entry) load initialised

theorem unconverged_step (unbounded : ∀ n, codec.Fits n) {tempSize : Nat}
    {events : List (LifeEvent D)} {event : LifeEvent D} {life' : Life D B}
    (sobol : study.options.sobolOp = true)
    (consistent : ∀ name rank, Consistent study (size name rank) name rank events)
    (member : event ∈ events)
    (unconverged : Unconverged codec study size (fun name rank => messagesTo name rank events) life)
    (taken : lifeStep codec tempSize study life event = some life') :
    Unconverged codec study size (fun name rank => messagesTo name rank events) life' := by
  have sound := unconverged.sound
  have sizes (others : List (List Nat)) (here : event = .restart others) :=
    (consistent "" 0).others others (here ▸ member)
  have tracked' (name : String) (known : name ∈ study.names) (rank : Nat)
      (inside : rank < study.commData.clientCommSize) :=
    tracked_step unbounded known inside sound (unconverged.tracked name known rank inside)
      (arrives_of_mem (consistent name rank) member) sizes taken
  refine ⟨sound_step unbounded sound sizes taken, tracked', ?_, ?_⟩
  · intro fieldId rank present
    cases event with
    | pass event =>
        obtain ⟨server, stepped, rfl⟩ := Option.map_eq_some_iff.mp taken
        rw [(step_sameStudy stepped).entries] at present
        exact unconverged.inside fieldId rank present
    | checkpoint now =>
        cases taken
        unfold checkpointRound at present
        split at present
        · exact unconverged.inside fieldId rank present
        · exact unconverged.inside fieldId rank present
    | restart others =>
        obtain ⟨server, started, rfl⟩ := Option.map_eq_some_iff.mp taken
        rw [(restartServer_parts unbounded sound (sizes others rfl) started).2.2.1] at present
        obtain ⟨data, present⟩ := Option.isSome_iff_exists.mp present
        exact (entryOf_emptyFields_cases present).1
  · intro fieldId rank data present initialised
    cases event with
    | pass event =>
        obtain ⟨server, stepped, rfl⟩ := Option.map_eq_some_iff.mp taken
        rcases step_fields stepped with unchanged | ⟨now, m, reply, own, simu, before, loaded,
          updated, status, rfl, admitted, accepted⟩
        · rw [unchanged] at present
          exact unconverged.never fieldId rank data present initialised
        · rw [accepted.fields] at present
          rcases entryOf_setEntry_cases accepted.entry present with ⟨_, _, rfl⟩ | ⟨_, present⟩
          · obtain ⟨_, statsInit, _⟩ := accumulate_frame accepted.update
            rw [statsInit] at initialised
            have sized := (consistent m.fieldName m.clientRank).sizes m
              (List.mem_filterMap.mpr ⟨_, member, if_pos ⟨rfl, rfl⟩⟩)
            have never := (neverComputed_accepted unbounded sobol unconverged sized admitted
              accepted).2 initialised
            exact neverComputed_accumulate never accepted.update
          · exact unconverged.never fieldId rank data present initialised
    | checkpoint now =>
        cases taken
        unfold checkpointRound at present
        split at present
        · exact unconverged.never fieldId rank data present initialised
        · exact unconverged.never fieldId rank data present initialised
    | restart others =>
        obtain ⟨server, started, rfl⟩ := Option.map_eq_some_iff.mp taken
        rw [(restartServer_parts unbounded sound (sizes others rfl) started).2.2.1] at present
        rw [(entryOf_emptyFields_cases present).2] at initialised
        cases initialised

/-- No message brings a field to convergence. -/
theorem newlyConverged_zero (unbounded : ∀ n, codec.Fits n) {tempSize fieldId : Nat}
    {server : Server D} {now : ℚ} {m : SimuData D} {reply : Job D}
    (wide : (convergedBound : D) < ((1 : ℕ) : D)) (sobol : study.options.sobolOp = true)
    (steps : 0 < study.options.nbTimeSteps) (parameters : 0 < study.options.nbParameters)
    (unconverged : Unconverged codec study size messages life)
    (sized : m.vectSize = size m.fieldName m.clientRank)
    (admitted : Admitted life.server m fieldId)
    (taken : acceptMessage (readSavedStats codec tempSize life.server.options
      life.server.commData.rank life.disk) life.server now m (.job reply) fieldId = some server) :
    newlyConverged (readSavedStats codec tempSize life.server.options life.server.commData.rank
      life.disk) life.server m fieldId = some 0 := by
  obtain ⟨simu, data, loaded, updated, status, accepted⟩ := acceptMessage_cases taken
  obtain ⟨present, _⟩ := List.getElem?_eq_some_iff.mp accepted.simulation
  obtain ⟨sameFields, sameOptions, _, sameSimulations, _⟩ :=
    countFirstSend_parts life.server fieldId m.clientRank
  have grown : growSimulations (countFirstSend life.server fieldId m.clientRank) m.simuId =
      countFirstSend life.server fieldId m.clientRank :=
    growSimulations_eq_self (by rw [sameSimulations]; exact present)
  have update := accepted.update
  unfold accumulate at update
  simp only [newlyConverged, grown, sameFields, sameOptions, Option.bind_eq_bind, accepted.entry,
    accepted.load, Option.bind_some]
  cases here : (growStepSimu life.server.options loaded m.simuId).stepSimu[m.simuId]? with
  | none =>
      simp only [here] at update
      cases update
  | some bits =>
      rw [Option.bind_some]
      simp only [here] at update
      split
      · rfl
      · rename_i computes
        simp only [Bool.or_eq_true, beq_iff_eq, Bool.not_eq_true', not_or] at computes
        obtain ⟨⟨unseen, some_values⟩, _⟩ := computes
        rw [if_neg unseen] at update
        obtain ⟨computed, done, rfl⟩ := Option.map_eq_some_iff.mp update
        rw [done, Option.bind_some]
        obtain ⟨statsInit, kept⟩ :=
          neverComputed_accepted unbounded sobol unconverged sized admitted accepted
        have never : NeverComputed study.options computed := by
          intro t step
          rw [intervalsOf_computeMessage done]
          exact kept (statsInit (Nat.pos_of_ne_zero some_values)) t step
        have options := unconverged.sound.options
        refine checkConvergence_wide ?_ ?_ (confidenceAt_neverComputed never steps parameters) wide
        · rw [options]
          exact steps
        · rw [options]
          exact parameters

end Unconverged

section Heard

variable {D B : Type}

/-- The data messages that `first_send` remembers. -/
def isHeard (study : Study D) (m : SimuData D) : Bool :=
  decide (0 ≤ m.timeStamp) && decide (m.timeStamp < study.options.nbTimeSteps) &&
    decide (m.fieldName ∈ study.names)

def hear (study : Study D) (heard : Bool) : LifeEvent D → Bool
  | .pass (.data _ m _) => heard || isHeard study m
  | .pass _ => heard
  | .checkpoint _ => heard
  | .restart _ => false

/-- Whether such a message has come since the last start. -/
def heardIn (study : Study D) (events : List (LifeEvent D)) : Bool :=
  events.foldl (hear study) false

/-- `local_nb_messages` counts something as soon as a message has been heard. -/
structure Hears (study : Study D) (heard : Bool) (server : Server D) : Prop where
  slots : server.firstSend.length = study.names.length * study.commData.clientCommSize
  untouched : heard = false → ∀ slot ∈ server.firstSend, slot = false
  counted : 0 < server.localNbMessages ↔ heard = true

theorem hears_start {study : Study D} {server : Server D}
    (slots : server.firstSend =
      List.replicate (study.names.length * study.commData.clientCommSize) false)
    (none_yet : server.localNbMessages = 0) : Hears study false server := by
  refine ⟨?_, fun _ slot member => ?_, ?_⟩
  · rw [slots, List.length_replicate]
  · rw [slots] at member
    exact List.eq_of_mem_replicate member
  · simp [none_yet]

theorem hears_unchanged {study : Study D} {heard : Bool} {server server' : Server D}
    (hears : Hears study heard server) (slots : server'.firstSend = server.firstSend)
    (counted : server'.localNbMessages = server.localNbMessages) : Hears study heard server' :=
  ⟨by rw [slots]; exact hears.slots, by rw [slots]; exact hears.untouched,
    by rw [counted]; exact hears.counted⟩

/-- The first message of its row is counted, and later ones find a row that was. -/
theorem hears_countFirstSend {study : Study D} {heard : Bool} {server : Server D}
    {fieldId rank : Nat} (hears : Hears study heard server) (known : fieldId < study.names.length)
    (inside : rank < study.commData.clientCommSize)
    (commData : server.commData = study.commData) :
    Hears study true (countFirstSend server fieldId rank) := by
  have room : fieldId * server.commData.clientCommSize + rank < server.firstSend.length := by
    rw [hears.slots, commData]
    calc fieldId * study.commData.clientCommSize + rank
        < (fieldId + 1) * study.commData.clientCommSize := by rw [Nat.add_one_mul]; omega
      _ ≤ study.names.length * study.commData.clientCommSize :=
        Nat.mul_le_mul_right _ known
  unfold countFirstSend
  dsimp only
  split
  · rename_i seen
    rw [List.getD_eq_getElem _ _ room] at seen
    have before : heard = true := by
      by_contra unheard
      have untouched := hears.untouched (by simpa using unheard) _ (List.getElem_mem room)
      rw [seen] at untouched
      cases untouched
    subst before
    exact hears
  · refine ⟨?_, fun unheard => (by cases unheard), by simp⟩
    rw [List.length_set]
    exact hears.slots

theorem textMessage_firstSend {server server' : Server D} {msg : LauncherMessage D}
    (taken : textMessage server msg = some server') :
    server'.firstSend = server.firstSend ∧ server'.localNbMessages = server.localNbMessages := by
  obtain ⟨handled, processed, rfl⟩ := Option.map_eq_some_iff.mp taken
  cases launcherEffect processed with
  | job present enough => exact ⟨rfl, rfl⟩
  | nothing noJob noDrop => exact ⟨rfl, rfl⟩

theorem timeoutRound_firstSend (server : Server D) (now : ℚ) :
    (timeoutRound server now).firstSend = server.firstSend ∧
      (timeoutRound server now).localNbMessages = server.localNbMessages := by
  unfold timeoutRound
  split
  · dsimp only
    split
    · exact ⟨rfl, rfl⟩
    · exact ⟨rfl, rfl⟩
  · exact ⟨rfl, rfl⟩

/-- The passes that are admitted are those that are heard. -/
theorem isHeard_iff {codec : Codec D B} {study : Study D} {life : Life D B}
    (sound : Sound codec study life) (m : SimuData D) :
    isHeard study m = true ↔ (admittedField life.server m).isSome = true := by
  have steps : life.server.options.nbTimeSteps = study.options.nbTimeSteps := by
    rw [sound.options]
  have known : (getFieldId life.server.fields m.fieldName).isSome = true ↔
      m.fieldName ∈ study.names := by
    rw [getFieldId, List.findIdx?_isSome, ← sound.names]
    simp
  unfold admittedField isHeard
  simp only [Bool.and_eq_true, decide_eq_true_eq, steps]
  split
  · rename_i bad
    refine iff_of_false (fun heard => ?_) (by simp)
    omega
  · rename_i good
    rw [known]
    refine ⟨fun heard => heard.2, fun listed => ⟨by omega, listed⟩⟩

variable [Zero D] [Add D] [Sub D] [Mul D] [Div D] [NatCast D] [IntCast D]
  [Pow D ℕ] [LT D] [DecidableLT D] [LE D] [DecidableLE D] [Libm D]

theorem acceptMessage_firstSend {restore : Restore D} {server server' : Server D} {now : ℚ}
    {m : SimuData D} {reply : Job D} {fieldId : Nat}
    (taken : acceptMessage restore server now m (.job reply) fieldId = some server') :
    server'.firstSend = (countFirstSend server fieldId m.clientRank).firstSend ∧
      server'.localNbMessages = (countFirstSend server fieldId m.clientRank).localNbMessages := by
  obtain ⟨data, loaded, simu, updated, asked, _, _, _, _, answered, done⟩ :=
    acceptMessage_parts taken
  simp only [updateProgress, Option.bind_eq_bind, Option.bind_eq_some_iff] at done
  obtain ⟨simu', _, status, _, rest⟩ := done
  cases rest
  rw [(awaitReply_cases answered).1]
  exact ⟨rfl, rfl⟩

end Heard

section Watched

variable {D B : Type}

/-- What makes simulations count as finished without a data message: a restart reads finished ones
back. -/
def FinishesUnheard : LifeEvent D → Prop
  | .restart _ => True
  | _ => False

theorem heardIn_concat (study : Study D) (past : List (LifeEvent D)) (event : LifeEvent D) :
    heardIn study (past ++ [event]) = hear study (heardIn study past) event := by
  rw [heardIn, List.foldl_append]
  rfl

/-- With no converged field the test asks for a server rank that has not heard of any field. -/
theorem convergedTest_iff {codec : Codec D B} {study : Study D} {life : Life D B} {heard : Bool}
    (sobol : study.options.sobolOp = true)
    (fields : study.names ≠ []) (sound : Sound codec study life)
    (hears : Hears study heard life.server) :
    convergedTest life.server 0 = true ↔
      heard = false ∧ 1 < life.server.nbFinishedSimulations := by
  have some_field : 0 < life.server.fields.length := by
    rw [← List.length_map (f := MelissaField.name), sound.names]
    exact List.length_pos_iff.mpr fields
  have unheard : life.server.fields.length * life.server.localNbMessages ≤ 0 ↔ heard = false := by
    rw [Nat.le_zero, Nat.mul_eq_zero, ← Bool.not_eq_true, ← hears.counted]
    omega
  have sobol' : life.server.options.sobolOp = true := by
    rw [sound.options]
    exact sobol
  simp only [convergedTest, sobol', Bool.and_true, Bool.and_eq_true, decide_eq_true_eq, ge_iff_le,
    gt_iff_lt, unheard]

variable [Zero D] [Add D] [Sub D] [Mul D] [Div D] [NatCast D] [IntCast D]
  [Pow D ℕ] [LT D] [DecidableLT D] [LE D] [DecidableLE D] [Libm D]

/-- What every state of a watched run keeps, after the work `past`. -/
structure Watched (codec : Codec D B) (study : Study D) (size : String → Nat → Nat)
    (messages : String → Nat → List (SimuData D)) (past : List (LifeEvent D))
    (watch : Watch D B) : Prop where
  unconverged : Unconverged codec study size messages watch.life
  hears : Hears study (heardIn study past) watch.life.server
  none_converged : watch.nbConvergedFields = 0
  idle : (∀ event ∈ past, ¬ FinishesUnheard event) → heardIn study past = false →
    watch.life.server.nbFinishedSimulations = 0
  silent : (∀ event ∈ past, ¬ FinishesUnheard event) → watch.converged = 0

variable {codec : Codec D B} {study : Study D} {size : String → Nat → Nat} {tempSize : Nat}
  {messages : String → Nat → List (SimuData D)} {life life' : Life D B}

theorem hears_lifeStep {heard : Bool} {event : LifeEvent D}
    (unconverged : Unconverged codec study size messages life)
    (hears : Hears study heard life.server)
    (taken : lifeStep codec tempSize study life event = some life') :
    Hears study (hear study heard event) life'.server := by
  cases event with
  | pass event =>
      obtain ⟨server, stepped, rfl⟩ := Option.map_eq_some_iff.mp taken
      cases event with
      | data now m reply =>
          have sound := unconverged.sound
          cases admitted : admittedField life.server m with
          | none =>
              have refused := admittedField_eq_none.mp admitted
              rcases dataMessage_cases stepped with ⟨rfl, _⟩ | ⟨fieldId, admitted', _⟩
              · have unheard : isHeard study m = false := by
                  rw [Bool.eq_false_iff, ne_eq, isHeard_iff sound, admitted]
                  simp
                rw [hear, unheard, Bool.or_false]
                exact hears
              · exact absurd admitted' (refused fieldId)
          | some fieldId =>
              have admitted' := admittedField_eq_some.mp admitted
              have accepted : acceptMessage (readSavedStats codec tempSize life.server.options
                  life.server.commData.rank life.disk) life.server now m (.job reply) fieldId =
                    some server := (dataMessage_admitted admitted').symm.trans stepped
              obtain ⟨data, loaded, simu, updated, asked, entry, _⟩ :=
                acceptMessage_parts accepted
              have heardNow : isHeard study m = true := by
                rw [isHeard_iff sound, admitted]
                rfl
              have known : fieldId < study.names.length := by
                have place := getFieldId_spec admitted'.2.2
                rw [sound.names] at place
                exact (List.getElem?_eq_some_iff.mp place).1
              have counted := hears_countFirstSend hears known
                (unconverged.inside fieldId m.clientRank (by rw [entry]; rfl)) sound.commData
              obtain ⟨slots, number⟩ := acceptMessage_firstSend accepted
              rw [hear, heardNow, Bool.or_true]
              exact hears_unchanged counted slots number
      | launcher msg =>
          obtain ⟨slots, number⟩ := textMessage_firstSend stepped
          exact hears_unchanged hears slots number
      | timeouts now =>
          cases stepped
          obtain ⟨slots, number⟩ := timeoutRound_firstSend life.server now
          exact hears_unchanged hears slots number
  | checkpoint now =>
      cases taken
      unfold checkpointRound
      split
      · exact hears_unchanged hears rfl rfl
      · exact hears
  | restart others =>
      obtain ⟨server, started, rfl⟩ := Option.map_eq_some_iff.mp taken
      obtain ⟨read, _, rest⟩ := Option.bind_eq_some_iff.mp started
      cases rest
      exact hears_start rfl rfl

/-- Without a data message nothing finishes. -/
theorem nbFinished_lifeStep {heard : Bool} {event : LifeEvent D}
    (sound : Sound codec study life) (quiet : ¬ FinishesUnheard event)
    (unheard : hear study heard event = false)
    (taken : lifeStep codec tempSize study life event = some life') :
    heard = false ∧
      life'.server.nbFinishedSimulations = life.server.nbFinishedSimulations := by
  cases event with
  | pass event =>
      obtain ⟨server, stepped, rfl⟩ := Option.map_eq_some_iff.mp taken
      cases event with
      | data now m reply =>
          obtain ⟨before, silent⟩ := Bool.or_eq_false_iff.mp unheard
          rcases dataMessage_cases stepped with ⟨rfl, _⟩ | ⟨fieldId, admitted, _⟩
          · exact ⟨before, rfl⟩
          · have heardNow : isHeard study m = true := by
              rw [isHeard_iff sound, admittedField_eq_some.mpr admitted]
              rfl
            rw [silent] at heardNow
            cases heardNow
      | launcher msg =>
          obtain ⟨handled, processed, rfl⟩ := Option.map_eq_some_iff.mp stepped
          refine ⟨unheard, ?_⟩
          cases launcherEffect processed with
          | job present enough => rfl
          | nothing noJob noDrop => rfl
      | timeouts now =>
          cases stepped
          exact ⟨unheard, (timeoutRound_parts life.server now).2.2.2.1⟩
  | checkpoint now =>
      cases taken
      refine ⟨unheard, ?_⟩
      unfold checkpointRound
      split
      · rfl
      · rfl
  | restart others => exact absurd trivial quiet

theorem countConverged_zero (unbounded : ∀ n, codec.Fits n) {watch : Watch D B}
    {event : LifeEvent D} {count : Nat} (wide : (convergedBound : D) < ((1 : ℕ) : D))
    (sobol : study.options.sobolOp = true) (steps : 0 < study.options.nbTimeSteps)
    (parameters : 0 < study.options.nbParameters)
    (unconverged : Unconverged codec study size messages watch.life)
    (none_converged : watch.nbConvergedFields = 0)
    (sized : ∀ now m reply, event = .pass (.data now m reply) →
      m.vectSize = size m.fieldName m.clientRank)
    (taken : lifeStep codec tempSize study watch.life event = some life')
    (counted : countConverged codec tempSize watch event = some count) : count = 0 := by
  cases event with
  | pass event =>
      obtain ⟨server, stepped, rfl⟩ := Option.map_eq_some_iff.mp taken
      cases event with
      | data now m reply =>
          cases admitted : admittedField watch.life.server m with
          | none =>
              simp only [countConverged, admitted, Option.some.injEq] at counted
              rw [← counted, none_converged]
          | some fieldId =>
              have admitted' := admittedField_eq_some.mp admitted
              have accepted : acceptMessage (readSavedStats codec tempSize
                  watch.life.server.options watch.life.server.commData.rank watch.life.disk)
                    watch.life.server now m (.job reply) fieldId = some server :=
                (dataMessage_admitted admitted').symm.trans stepped
              have nothing := newlyConverged_zero unbounded wide sobol steps parameters unconverged
                (sized now m reply rfl) admitted' accepted
              simp only [countConverged, admitted, nothing, Option.map_some,
                Option.some.injEq] at counted
              rw [← counted, none_converged]
      | launcher msg =>
          cases counted
          exact none_converged
      | timeouts now =>
          cases counted
          exact none_converged
  | checkpoint now =>
      cases counted
      exact none_converged
  | restart others =>
      cases counted
      rfl

/-- The end of a pass, if no field has converged. -/
theorem watched_endOfPass {past : List (LifeEvent D)} {watch next : Watch D B}
    (sobol : study.options.sobolOp = true) (fields : study.names ≠ [])
    (watched : Watched codec study size messages past watch)
    (taken : watchStep codec tempSize study watch .endOfPass = some next) :
    next.converged = if watch.connected = true ∧ heardIn study past = false ∧
        1 < watch.life.server.nbFinishedSimulations
      then watch.converged + 1 else watch.converged := by
  cases taken
  simp only [watched.none_converged, Bool.and_eq_true,
    convergedTest_iff sobol fields watched.unconverged.sound watched.hears]

theorem watched_work (unbounded : ∀ n, codec.Fits n) {past works : List (LifeEvent D)}
    {event : LifeEvent D} {watch next : Watch D B}
    (wide : (convergedBound : D) < ((1 : ℕ) : D)) (sobol : study.options.sobolOp = true)
    (steps : 0 < study.options.nbTimeSteps) (parameters : 0 < study.options.nbParameters)
    (consistent : ∀ name rank, Consistent study (size name rank) name rank works)
    (member : event ∈ works)
    (watched : Watched codec study size (fun name rank => messagesTo name rank works) past watch)
    (taken : watchStep codec tempSize study watch (.work event) = some next) :
    Watched codec study size (fun name rank => messagesTo name rank works) (past ++ [event])
      next := by
  obtain ⟨connected, _, rest⟩ := Option.bind_eq_some_iff.mp taken
  obtain ⟨life', lived, rest⟩ := Option.bind_eq_some_iff.mp rest
  obtain ⟨count, counted, done⟩ := Option.bind_eq_some_iff.mp rest
  have sized (now : ℚ) (m : SimuData D) (reply : Job D)
      (here : event = .pass (.data now m reply)) : m.vectSize = size m.fieldName m.clientRank := by
    subst here
    exact (consistent m.fieldName m.clientRank).sizes m
      (List.mem_filterMap.mpr ⟨_, member, if_pos ⟨rfl, rfl⟩⟩)
  have unconverged' := unconverged_step unbounded sobol consistent member watched.unconverged lived
  have hears' := hears_lifeStep watched.unconverged watched.hears lived
  rw [← heardIn_concat] at hears'
  have zero := countConverged_zero unbounded wide sobol steps parameters watched.unconverged
    watched.none_converged sized lived counted
  have before {P : LifeEvent D → Prop} (all : ∀ e ∈ past ++ [event], P e) : ∀ e ∈ past, P e :=
    fun e listed => all e (List.mem_append_left _ listed)
  have idle' (quiet : ∀ e ∈ past ++ [event], ¬ FinishesUnheard e)
      (unheard : heardIn study (past ++ [event]) = false) :
      life'.server.nbFinishedSimulations = 0 := by
    rw [heardIn_concat] at unheard
    obtain ⟨nothing, same⟩ := nbFinished_lifeStep watched.unconverged.sound
      (quiet event (by simp)) unheard lived
    exact same.trans (watched.idle (before quiet) nothing)
  cases done
  exact ⟨unconverged', hears', zero, idle', fun quiet => watched.silent (before quiet)⟩

theorem watched_step (unbounded : ∀ n, codec.Fits n) {past works : List (LifeEvent D)}
    {event : WatchEvent D} {watch next : Watch D B}
    (wide : (convergedBound : D) < ((1 : ℕ) : D)) (sobol : study.options.sobolOp = true)
    (steps : 0 < study.options.nbTimeSteps) (parameters : 0 < study.options.nbParameters)
    (fields : study.names ≠ [])
    (consistent : ∀ name rank, Consistent study (size name rank) name rank works)
    (among : ∀ work ∈ worksOf [event], work ∈ works)
    (watched : Watched codec study size (fun name rank => messagesTo name rank works) past watch)
    (taken : watchStep codec tempSize study watch event = some next) :
    Watched codec study size (fun name rank => messagesTo name rank works)
      (past ++ worksOf [event]) next := by
  cases event with
  | work event =>
      exact watched_work unbounded wide sobol steps parameters consistent
        (among event (List.mem_singleton_self event)) watched taken
  | connect =>
      cases taken
      rw [worksOf, List.filterMap_cons_none rfl, List.filterMap_nil, List.append_nil]
      exact ⟨watched.unconverged, watched.hears, watched.none_converged, watched.idle,
        watched.silent⟩
  | endOfPass =>
      have sent := watched_endOfPass sobol fields watched taken
      cases taken
      rw [worksOf, List.filterMap_cons_none rfl, List.filterMap_nil, List.append_nil]
      refine ⟨watched.unconverged, watched.hears, watched.none_converged, watched.idle,
        fun quiet => ?_⟩
      rw [sent, if_neg]
      · exact watched.silent quiet
      · rintro ⟨_, unheard, finished⟩
        rw [watched.idle quiet unheard] at finished
        omega

theorem watched_run (unbounded : ∀ n, codec.Fits n) {works : List (LifeEvent D)}
    (wide : (convergedBound : D) < ((1 : ℕ) : D)) (sobol : study.options.sobolOp = true)
    (steps : 0 < study.options.nbTimeSteps) (parameters : 0 < study.options.nbParameters)
    (fields : study.names ≠ [])
    (consistent : ∀ name rank, Consistent study (size name rank) name rank works)
    {past : List (WatchEvent D)} (among : ∀ work ∈ worksOf past, work ∈ works) {watch : Watch D B}
    (reached : run (watchStep codec tempSize study) (firstWatch study) past = some watch) :
    Watched codec study size (fun name rank => messagesTo name rank works) (worksOf past)
      watch := by
  induction past using List.reverseRecOn generalizing watch with
  | nil =>
      cases reached
      exact ⟨unconverged_firstLife codec study size _, hears_start rfl rfl, rfl, fun _ _ => rfl,
        fun _ => rfl⟩
  | append_singleton past event ih =>
      obtain ⟨mid, front, taken⟩ := run_concat_eq_some.mp reached
      have split : worksOf (past ++ [event]) = worksOf past ++ worksOf [event] :=
        List.filterMap_append
      rw [split] at among ⊢
      have watched := ih (fun work listed => among work (List.mem_append_left _ listed)) front
      exact watched_step unbounded wide sobol steps parameters fields consistent
        (fun work listed => among work (List.mem_append_right _ listed)) watched taken

/-- No field of a Sobol study ever counts as converged: the confidence intervals of every structure
are those of a new one. The message `converged` is sent all the same, exactly by the passes that
end between the first connection and the first data message of a life while more than one
simulation is finished. -/
theorem neverConverges (codec : Codec D B) (unbounded : ∀ n, codec.Fits n) (tempSize : Nat)
    (study : Study D) (size : String → Nat → Nat) (events : List (WatchEvent D)) (watch : Watch D B)
    (wide : (convergedBound : D) < ((1 : ℕ) : D)) (sobol : study.options.sobolOp = true)
    (steps : 0 < study.options.nbTimeSteps) (parameters : 0 < study.options.nbParameters)
    (fields : study.names ≠ [])
    (sizes : ∀ now m reply, .pass (.data now m reply) ∈ worksOf events →
      m.vectSize = size m.fieldName m.clientRank)
    (others : ∀ others, .restart others ∈ worksOf events →
      ∀ statuses ∈ others, statuses.length = study.options.samplingSize.toNat)
    (reached : run (watchStep codec tempSize study) (firstWatch study) events = some watch) :
    watch.nbConvergedFields = 0 ∧
      (∀ fieldId rank data, entryOf watch.life.server.fields fieldId rank = some data →
        data.statsInit = true → NeverComputed study.options data) ∧
      (∀ front back mid next, events = front ++ .endOfPass :: back →
        run (watchStep codec tempSize study) (firstWatch study) front = some mid →
        watchStep codec tempSize study mid .endOfPass = some next →
        next.converged = if mid.connected = true ∧ heardIn study (worksOf front) = false ∧
            1 < mid.life.server.nbFinishedSimulations
          then mid.converged + 1 else mid.converged) ∧
      ((∀ event ∈ worksOf events, ¬ FinishesUnheard event) → watch.converged = 0) := by
  have consistent (name : String) (rank : Nat) :
      Consistent study (size name rank) name rank (worksOf events) := by
    refine ⟨fun m member => ?_, others⟩
    obtain ⟨⟨now, reply, sent⟩, rfl, rfl⟩ := mem_messagesTo member
    exact sizes now m reply sent
  have watched {past : List (WatchEvent D)} (among : ∀ work ∈ worksOf past, work ∈ worksOf events)
      {mid : Watch D B}
      (front : run (watchStep codec tempSize study) (firstWatch study) past = some mid) :=
    watched_run unbounded wide sobol steps parameters fields consistent among front
  have last := watched (fun _ member => member) reached
  refine ⟨last.none_converged, last.unconverged.never, ?_, last.silent⟩
  intro front back mid next split reachedMid taken
  have among : ∀ work ∈ worksOf front, work ∈ worksOf events := by
    intro work member
    rw [split, worksOf, List.filterMap_append]
    exact List.mem_append_left _ member
  exact watched_endOfPass sobol fields (watched among reachedMid) taken

end Watched

section Example

private def sobolStudy : Study ℚ :=
  ⟨{ twoByTwo with nbTimeSteps := 1, nbParameters := 2, samplingSize := 3, sobolOp := true },
    ⟨0, 1, 1⟩, ["heat"]⟩

private def groupMessage (now : ℚ) (simuId : Nat) : WatchEvent ℚ :=
  .work (.pass (.data now ⟨0, simuId, 0, 1, "heat", [3, 5, 4, 6]⟩ ⟨simuId, "job", [1, 2]⟩))

/-- Two of three groups, a checkpoint, a restart, and a connection before the third group. -/
private def sobolDays : List (WatchEvent ℚ) :=
  [.connect, groupMessage 1 0, .endOfPass, groupMessage 2 1, .endOfPass, .work (.checkpoint 10),
    .work (.restart []), .endOfPass, .connect, .endOfPass, groupMessage 12 2, .endOfPass]

private theorem sobolDays_sized {now : ℚ} {m : SimuData ℚ} {reply : Job ℚ}
    (sent : .pass (.data now m reply) ∈ worksOf sobolDays) : m.vectSize = 1 := by
  simp only [worksOf, sobolDays, groupMessage, WatchEvent.workOf, List.filterMap_cons,
    List.filterMap_nil, List.mem_cons, List.not_mem_nil, or_false, reduceCtorEq, false_or,
    LifeEvent.pass.injEq, Event.data.injEq] at sent
  rcases sent with ⟨_, rfl, _⟩ | ⟨_, rfl, _⟩ | ⟨_, rfl, _⟩
  · rfl
  · rfl
  · rfl

/-- The restarted rank sends `converged` once. -/
theorem neverConverges_restarted :
    ∃ watch, run (watchStep (exactCodec ℚ) 0 sobolStudy) (firstWatch sobolStudy) sobolDays =
        some watch ∧ watch.converged = 1 ∧ watch.nbConvergedFields = 0 := by
  have sent : (run (watchStep (exactCodec ℚ) 0 sobolStudy) (firstWatch sobolStudy)
      sobolDays).map Watch.converged = some 1 := by decide +kernel
  obtain ⟨watch, reached, once⟩ := Option.map_eq_some_iff.mp sent
  refine ⟨watch, reached, once, ?_⟩
  refine (neverConverges (exactCodec ℚ) (fun _ => trivial) 0 sobolStudy (fun _ _ => 1) sobolDays
    watch (by decide +kernel) rfl (by decide) (by decide) (by decide)
    (fun _ _ _ => sobolDays_sized) ?_ reached).1
  intro others restarted statuses member
  simp only [worksOf, sobolDays, groupMessage, WatchEvent.workOf, List.filterMap_cons,
    List.filterMap_nil, List.mem_cons, List.not_mem_nil, or_false, reduceCtorEq, false_or,
    LifeEvent.restart.injEq] at restarted
  rw [restarted] at member
  cases member

end Example

end Melissa
