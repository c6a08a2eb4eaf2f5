import Melissa.OrderFree
import Melissa.Server.EntryHistory
import Melissa.Server.Rounds

/-! Runs of data messages from a first start: each structure of the server is the record of its
own messages, whatever the interleaving and the repetitions. -/

namespace Melissa

open Runs FirstSeen

section Arrivals

variable {D : Type}

/-- A data message with its time of arrival and the answer to `simu_info`. -/
structure Arrival (D : Type) where
  now : ℚ
  m : SimuData D
  reply : Job D

def Arrival.event (arrival : Arrival D) : Event D := .data arrival.now arrival.m arrival.reply

/-- The message is for this structure. -/
def addressed (names : List String) (fieldId clientRank : Nat) (m : SimuData D) : Bool :=
  names.findIdx? (· == m.fieldName) == some fieldId && m.clientRank == clientRank

theorem addressed_iff {names : List String} {fieldId : Nat} {m : SimuData D}
    (known : names.findIdx? (· == m.fieldName) = some fieldId) (fieldId' clientRank : Nat) :
    addressed names fieldId' clientRank m = true ↔
      fieldId' = fieldId ∧ clientRank = m.clientRank := by
  rw [addressed, known, Bool.and_eq_true, beq_iff_eq, beq_iff_eq, Option.some.injEq,
    eq_comm, @eq_comm _ m.clientRank]

/-- The messages of one structure, in the order of their arrival. -/
def messagesOf (names : List String) (fieldId clientRank : Nat) (arrivals : List (Arrival D)) :
    List (SimuData D) :=
  (arrivals.map Arrival.m).filter (addressed names fieldId clientRank)

/-- Messages of a known field and client rank with the size `sizes` gives to their structure,
answered by JOB messages of known simulations. -/
structure WellFormed (options : Options D) (commData : CommData) (names : List String)
    (sizes : Nat → Nat → Nat) (arrival : Arrival D) : Prop where
  field : ∃ fieldId, names.findIdx? (· == arrival.m.fieldName) = some fieldId ∧
    Sendable options options.samplingSize.toNat (sizes fieldId arrival.m.clientRank) arrival.m
  rank : arrival.m.clientRank < commData.clientCommSize
  reply : arrival.reply.simuId < options.samplingSize.toNat ∧
    options.nbParameters ≤ arrival.reply.parameters.length

theorem messagesOf_concat (names : List String) (fieldId clientRank : Nat)
    (arrivals : List (Arrival D)) (arrival : Arrival D) :
    messagesOf names fieldId clientRank (arrivals ++ [arrival]) =
      if addressed names fieldId clientRank arrival.m then
        messagesOf names fieldId clientRank arrivals ++ [arrival.m]
      else messagesOf names fieldId clientRank arrivals := by
  simp only [messagesOf, List.map_append, List.map_singleton, List.filter_append]
  split
  · rename_i here
    simp [here]
  · rename_i there
    simp [there]

theorem getFieldId_eq_findIdx (fields : List (MelissaField D)) (fieldName : String) :
    getFieldId fields fieldName = (fields.map MelissaField.name).findIdx? (· == fieldName) := by
  rw [List.findIdx?_map]
  rfl

theorem sendable_messagesOf {options : Options D} {commData : CommData} {names : List String}
    {sizes : Nat → Nat → Nat} {arrivals : List (Arrival D)} {fieldId clientRank : Nat}
    (wellFormed : ∀ arrival ∈ arrivals, WellFormed options commData names sizes arrival)
    {m : SimuData D} (member : m ∈ messagesOf names fieldId clientRank arrivals) :
    Sendable options options.samplingSize.toNat (sizes fieldId clientRank) m := by
  obtain ⟨present, chosen⟩ := List.mem_filter.mp member
  obtain ⟨arrival, inside, rfl⟩ := List.mem_map.mp present
  obtain ⟨fieldId', known, sendable⟩ := (wellFormed arrival inside).field
  obtain ⟨rfl, rfl⟩ := (addressed_iff known fieldId clientRank).mp chosen
  exact sendable

theorem wellFormed_firstStart {options : Options D} {commData : CommData} {names : List String}
    {sizes : Nat → Nat → Nat} {arrival : Arrival D}
    (wellFormed : WellFormed options commData names sizes arrival) :
    WellFormed options.firstStart commData names sizes arrival := by
  obtain ⟨⟨fieldId, known, sendable⟩, rank, reply⟩ := wellFormed
  exact ⟨⟨fieldId, known, sendable.valid, sendable.below, sendable.inside, sendable.size,
    sendable.positive, sendable.values⟩, rank, reply⟩

/-- Messages for the same structure, simulation and time step are the same message. -/
def SameDuplicates (arrivals : List (Arrival D)) : Prop :=
  ∀ a ∈ arrivals, ∀ b ∈ arrivals, a.m.fieldName = b.m.fieldName →
    a.m.clientRank = b.m.clientRank → a.m.simuId = b.m.simuId →
    a.m.timeStamp = b.m.timeStamp → a.m = b.m

private theorem addressed_fieldName {names : List String} {fieldId clientRank : Nat}
    {a b : SimuData D} (left : addressed names fieldId clientRank a = true)
    (right : addressed names fieldId clientRank b = true) :
    a.fieldName = b.fieldName ∧ a.clientRank = b.clientRank := by
  simp only [addressed, Bool.and_eq_true, beq_iff_eq] at left right
  obtain ⟨inside, here, _⟩ := List.findIdx?_eq_some_iff_getElem.mp left.1
  obtain ⟨_, there, _⟩ := List.findIdx?_eq_some_iff_getElem.mp right.1
  rw [beq_iff_eq] at here there
  exact ⟨here.symm.trans there, left.2.trans right.2.symm⟩

/-- The first messages of two runs over one set of messages are rearrangements. -/
theorem firstMessages_perm {names : List String} {arrivals arrivals' : List (Arrival D)}
    (duplicates : SameDuplicates arrivals)
    (same : ∀ m, m ∈ arrivals.map Arrival.m ↔ m ∈ arrivals'.map Arrival.m)
    (fieldId clientRank t : Nat) :
    (firstMessages (messagesOf names fieldId clientRank arrivals) t).Perm
      (firstMessages (messagesOf names fieldId clientRank arrivals') t) := by
  apply firsts_perm
  · intro a left b right simu
    obtain ⟨left, stampA⟩ := List.mem_filter.mp left
    obtain ⟨right, stampB⟩ := List.mem_filter.mp right
    obtain ⟨left, addressedA⟩ := List.mem_filter.mp left
    obtain ⟨right, addressedB⟩ := List.mem_filter.mp right
    obtain ⟨arrivalA, insideA, rfl⟩ := List.mem_map.mp left
    obtain ⟨arrivalB, insideB, rfl⟩ := List.mem_map.mp right
    obtain ⟨name, rank⟩ := addressed_fieldName addressedA addressedB
    simp only [atStep, beq_iff_eq] at stampA stampB
    exact duplicates _ insideA _ insideB name rank simu (stampA.trans stampB.symm)
  · intro m
    simp only [messagesOf, List.mem_filter, same m]

end Arrivals

section Runs

variable {D : Type} [Zero D] [Add D] [Sub D] [Mul D] [Div D] [NatCast D] [IntCast D]
  [Pow D ℕ] [LT D] [DecidableLT D] [LE D] [DecidableLE D] [Libm D]

/-- Every structure of the server is the record of its messages. -/
structure AllRecords (options : Options D) (commData : CommData) (names : List String)
    (sizes : Nat → Nat → Nat) (past : List (Arrival D)) (server : Server D) : Prop where
  ready : Ready options.samplingSize.toNat server
  sameOptions : server.options = options
  sameNames : server.fields.map MelissaField.name = names
  entries : ∀ fieldId clientRank, fieldId < names.length → clientRank < commData.clientCommSize →
    ∃ data, entryOf server.fields fieldId clientRank = some data ∧
      if messagesOf names fieldId clientRank past = [] then data = emptyData
      else Records options options.samplingSize.toNat (sizes fieldId clientRank)
        (messagesOf names fieldId clientRank past) data

theorem allRecords_freshServer (options : Options D) (commData : CommData) (names : List String)
    (sizes : Nat → Nat → Nat) :
    AllRecords options.firstStart commData names sizes []
      (freshServer options commData names) := by
  refine ⟨ready_freshServer options commData names, rfl, ?_, ?_⟩
  · simp [freshServer, startServer, emptyField, Function.comp_def]
  · intro fieldId clientRank known inside
    refine ⟨emptyData, ?_, rfl⟩
    rw [entryOf_freshServer, if_pos ⟨known, inside⟩]

/-- A well-formed message is handled to its end and recorded in its structure. -/
theorem allRecords_step {options : Options D} {commData : CommData} {names : List String}
    {sizes : Nat → Nat → Nat} {past : List (Arrival D)} {server : Server D}
    {arrival : Arrival D} (accepted : rejected options = false)
    (inv : AllRecords options commData names sizes past server)
    (wellFormed : WellFormed options commData names sizes arrival) :
    ∃ server', step noRestore server arrival.event = some server' ∧
      AllRecords options commData names sizes (past ++ [arrival]) server' := by
  obtain ⟨ready, sameOptions, sameNames, entries⟩ := inv
  subst sameOptions
  obtain ⟨fieldId, known, sendable⟩ := wellFormed.field
  obtain ⟨inside, _⟩ := List.findIdx?_eq_some_iff_getElem.mp known
  have admitted : Admitted server arrival.m fieldId := by
    refine ⟨sendable.valid, sendable.below, ?_⟩
    rw [getFieldId_eq_findIdx, sameNames]
    exact known
  have own : addressed names fieldId arrival.m.clientRank arrival.m = true :=
    (addressed_iff known _ _).mpr ⟨rfl, rfl⟩
  obtain ⟨data, entry, history⟩ := entries fieldId arrival.m.clientRank inside wellFormed.rank
  obtain ⟨loaded, updated, load, update, records⟩ := receive_records
    (noRestore arrival.m.fieldName arrival.m.clientRank) ready.first accepted rfl history
    sendable
  have bound : arrival.m.simuId < server.simulations.length := by
    rw [ready.simulations]
    exact sendable.inside
  have simulation := List.getElem?_eq_getElem bound
  obtain ⟨status, progress⟩ := checkSimuState_isSome ready entry records.sized sendable.inside
  obtain ⟨server', taken⟩ := acceptMessage_succeeds simulation entry load update
    (fun _ => by rw [ready.simulations]; exact wellFormed.reply) progress arrival.now
  have taken' : step noRestore server arrival.event = some server' := by
    rw [Arrival.event, step, dataMessage_admitted admitted, taken]
  obtain ⟨simu, data', loaded', updated', _, accepted⟩ := acceptMessage_cases taken
  have fields : server'.fields = setEntry server.fields fieldId arrival.m.clientRank updated :=
    accepted.fields_of entry load update
  refine ⟨server', taken', ready_step ready taken', accepted.options, ?_, ?_⟩
  · rw [fields, map_name_setEntry, sameNames]
  · intro fieldId' clientRank' known' inside'
    rw [fields, messagesOf_concat]
    by_cases here : fieldId' = fieldId ∧ clientRank' = arrival.m.clientRank
    · obtain ⟨rfl, rfl⟩ := here
      refine ⟨updated, entryOf_setEntry_same entry updated, ?_⟩
      rw [if_pos own, if_neg (by simp)]
      exact records
    · have other : ¬ addressed names fieldId' clientRank' arrival.m = true :=
        fun own' => here ((addressed_iff known _ _).mp own')
      rw [if_neg other, entryOf_setEntry_other here]
      exact entries fieldId' clientRank' known' inside'

end Runs

section Events

variable {D : Type}

def arrivalOf : Event D → Option (Arrival D)
  | .data now m reply => some ⟨now, m, reply⟩
  | .launcher _ => none
  | .timeouts _ => none

/-- The data messages of a run. -/
def arrivalsOf (events : List (Event D)) : List (Arrival D) := events.filterMap arrivalOf

/-- Well-formed data messages, and messages of the launcher about known simulations, but no DROP. -/
def EventFormed (options : Options D) (commData : CommData) (names : List String)
    (sizes : Nat → Nat → Nat) : Event D → Prop
  | .data now m reply => WellFormed options commData names sizes ⟨now, m, reply⟩
  | .launcher (.job job) => job.simuId < options.samplingSize.toNat ∧
      options.nbParameters ≤ job.parameters.length
  | .launcher (.drop _ _) => False
  | _ => True

theorem wellFormed_arrivals {options : Options D} {commData : CommData} {names : List String}
    {sizes : Nat → Nat → Nat} {events : List (Event D)}
    (formed : ∀ event ∈ events, EventFormed options commData names sizes event) :
    ∀ arrival ∈ arrivalsOf events, WellFormed options commData names sizes arrival := by
  intro arrival member
  obtain ⟨event, listed, own⟩ := List.mem_filterMap.mp member
  have here := formed event listed
  cases event with
  | data now m reply =>
      cases own
      exact here
  | launcher msg => cases own
  | timeouts now => cases own

theorem eventFormed_firstStart {options : Options D} {commData : CommData} {names : List String}
    {sizes : Nat → Nat → Nat} {event : Event D}
    (formed : EventFormed options commData names sizes event) :
    EventFormed options.firstStart commData names sizes event := by
  cases event with
  | data now m reply => exact wellFormed_firstStart formed
  | launcher msg =>
      cases msg with
      | job job => exact formed
      | drop simuId jobId => exact absurd formed id
      | hello => trivial
      | alive => trivial
      | options => trivial
      | unknown messageType => trivial
  | timeouts now => trivial

variable [Zero D] [Add D] [Sub D] [Mul D] [Div D] [NatCast D] [IntCast D]
  [Pow D ℕ] [LT D] [DecidableLT D] [LE D] [DecidableLE D] [Libm D]

theorem launcher_succeeds {options : Options D} {commData : CommData} {names : List String}
    {sizes : Nat → Nat → Nat} {past : List (Arrival D)} {server : Server D}
    {msg : LauncherMessage D} (inv : AllRecords options commData names sizes past server)
    (formed : EventFormed options commData names sizes (.launcher msg)) :
    ∃ server', textMessage server msg = some server' := by
  have known {simuId : Nat} (inside : simuId < options.samplingSize.toNat) :
      simuId < server.simulations.length := by
    rw [inv.ready.simulations]
    exact inside
  have handled : ∃ server', processLauncherMessage server msg = some server' := by
    cases msg with
    | job job =>
        refine processLauncherMessage_job_succeeds (known formed.1) ?_
        rw [inv.sameOptions]
        exact formed.2
    | drop simuId jobId => exact absurd formed id
    | hello => exact ⟨_, rfl⟩
    | alive => exact ⟨_, rfl⟩
    | options => exact ⟨_, rfl⟩
    | unknown messageType => exact ⟨_, rfl⟩
  obtain ⟨server', handled⟩ := handled
  exact ⟨_, by rw [textMessage, handled, Option.map_some]⟩

/-- An event that leaves the fields and the options alone. -/
theorem allRecords_unchanged {options : Options D} {commData : CommData} {names : List String}
    {sizes : Nat → Nat → Nat} {past : List (Arrival D)} {server server' : Server D}
    (inv : AllRecords options commData names sizes past server)
    (ready : Ready options.samplingSize.toNat server') (sameOptions : server'.options = options)
    (fields : server'.fields = server.fields) :
    AllRecords options commData names sizes past server' :=
  ⟨ready, sameOptions, by rw [fields]; exact inv.sameNames, by rw [fields]; exact inv.entries⟩

theorem allRecords_event {options : Options D} {commData : CommData} {names : List String}
    {sizes : Nat → Nat → Nat} {past : List (Arrival D)} {server : Server D} {event : Event D}
    (accepted : rejected options = false)
    (inv : AllRecords options commData names sizes past server)
    (formed : EventFormed options commData names sizes event) :
    ∃ server', step noRestore server event = some server' ∧
      AllRecords options commData names sizes (past ++ arrivalsOf [event]) server' := by
  cases event with
  | data now m reply =>
      have wellFormed : WellFormed options commData names sizes ⟨now, m, reply⟩ := formed
      exact allRecords_step accepted inv wellFormed
  | launcher msg =>
      obtain ⟨server', taken⟩ := launcher_succeeds inv formed
      obtain ⟨fields, _, _, options'⟩ := textMessage_parts taken
      have ready : Ready options.samplingSize.toNat server' := by
        have taken' : step noRestore server (.launcher msg) = some server' := taken
        exact ready_step inv.ready taken'
      refine ⟨server', taken, ?_⟩
      rw [arrivalsOf, List.filterMap_cons_none rfl, List.filterMap_nil, List.append_nil]
      refine allRecords_unchanged inv ready ?_ fields
      have length : (server.simulations.length : Int) = options.samplingSize := by
        have positive := samplingSize_pos accepted
        rw [inv.ready.simulations]
        omega
      rw [options', inv.sameOptions, length]
  | timeouts now =>
      obtain ⟨fields, options', _⟩ := timeoutRound_parts server now
      have ready : Ready options.samplingSize.toNat (timeoutRound server now) := by
        have taken : step noRestore server (.timeouts now) = some (timeoutRound server now) := rfl
        exact ready_step inv.ready taken
      refine ⟨_, rfl, ?_⟩
      rw [arrivalsOf, List.filterMap_cons_none rfl, List.filterMap_nil, List.append_nil]
      exact allRecords_unchanged inv ready (options'.trans inv.sameOptions) fields

/-- Whole runs, with messages of the launcher and timeouts between the data. -/
theorem allRecords_events (options : Options D) (commData : CommData) (names : List String)
    (sizes : Nat → Nat → Nat) (accepted : rejected options = false) (events : List (Event D))
    (formed : ∀ event ∈ events, EventFormed options.firstStart commData names sizes event) :
    ∃ server, run (step noRestore) (freshServer options commData names) events = some server ∧
      AllRecords options.firstStart commData names sizes (arrivalsOf events) server := by
  have accepted' : rejected options.firstStart = false := accepted
  induction events using List.reverseRecOn with
  | nil => exact ⟨_, rfl, allRecords_freshServer options commData names sizes⟩
  | append_singleton past event ih =>
      obtain ⟨mid, reached, inv⟩ :=
        ih fun earlier member => formed earlier (List.mem_append_left _ member)
      obtain ⟨server, taken, inv'⟩ := allRecords_event accepted' inv (formed event (by simp))
      refine ⟨server, run_concat_eq_some.mpr ⟨mid, reached, taken⟩, ?_⟩
      rw [arrivalsOf, List.filterMap_append]
      exact inv'

end Events

section Quantiles

theorem stepStats_withoutQuantiles {D : Type} {data data' : MelissaData D} {t : Nat}
    (same : stepStats data t = stepStats data' t) :
    stepStats (withoutQuantiles data) t = stepStats (withoutQuantiles data') t := by
  have through (data : MelissaData D) : stepStats (withoutQuantiles data) t =
      { stepStats data t with quantiles := none } := rfl
  rw [through, same, ← through]

theorem values_withoutQuantiles {K : Type} {data data' : MelissaData K}
    (same : withoutQuantiles data = withoutQuantiles data') (t : Nat) :
    values (stepStats data t) = values (stepStats data' t) := by
  have through (data : MelissaData K) :
      values (stepStats data t) = values (stepStats (withoutQuantiles data) t) := rfl
  rw [through data, same, ← through]

end Quantiles

section Statement

variable {D : Type} [Zero D] [Add D] [Sub D] [Mul D] [Div D] [NatCast D] [IntCast D]
  [Pow D ℕ] [LT D] [DecidableLT D] [LE D] [DecidableLE D] [Libm D]

/-- In every structure a bit is set for each message received and for nothing else, and the
statistics of a time step, but for its quantiles, are those of `compute_stats` applied once to the
first message of each simulation. -/
def RecordedOnce (options : Options D) (commData : CommData) (names : List String)
    (sizes : Nat → Nat → Nat) (arrivals : List (Arrival D)) (server : Server D) : Prop :=
  ∀ fieldId clientRank, fieldId < names.length → clientRank < commData.clientCommSize →
    ∃ data, entryOf server.fields fieldId clientRank = some data ∧
      (∀ s t, t < options.nbTimeSteps → (bitOf data s t = true ↔
        ∃ m ∈ messagesOf names fieldId clientRank arrivals,
          m.simuId = s ∧ m.timeStamp = (t : Int))) ∧
      (messagesOf names fieldId clientRank arrivals ≠ [] → ∀ t < options.nbTimeSteps,
        ∃ once, computeAll options
            (melissaInitData options emptyData (sizes fieldId clientRank))
            (firstMessages (messagesOf names fieldId clientRank arrivals) t) = some once ∧
          stepStats (withoutQuantiles data) t = stepStats (withoutQuantiles once) t)

theorem recordedOnce_of_allRecords {options : Options D} {commData : CommData}
    {names : List String} {sizes : Nat → Nat → Nat} {arrivals : List (Arrival D)}
    {server : Server D}
    (wellFormed : ∀ arrival ∈ arrivals, WellFormed options commData names sizes arrival)
    (inv : AllRecords options commData names sizes arrivals server) :
    RecordedOnce options commData names sizes arrivals server := by
  intro fieldId clientRank known inside
  obtain ⟨data, entry, history⟩ := inv.entries fieldId clientRank known inside
  refine ⟨data, entry, ?_⟩
  by_cases none_yet : messagesOf names fieldId clientRank arrivals = []
  · rw [if_pos none_yet] at history
    refine ⟨?_, fun some_yet => absurd none_yet some_yet⟩
    intro s t _
    rw [none_yet, history, bitOf_emptyData]
    simp
  · rw [if_neg none_yet] at history
    refine ⟨history.bits, ?_⟩
    intro _ t below
    have sendable (m : SimuData D)
        (member : m ∈ firstMessages (messagesOf names fieldId clientRank arrivals) t) :
        Sendable options options.samplingSize.toNat (sizes fieldId clientRank) m ∧
          m.timeStamp = (t : Int) := by
      have kept := mem_of_mem_firsts SimuData.simuId member
      obtain ⟨present, stamp⟩ := List.mem_filter.mp kept
      exact ⟨sendable_messagesOf wellFormed present, by simpa [atStep] using stamp⟩
    obtain ⟨first, positive⟩ : ∃ m, m ∈ messagesOf names fieldId clientRank arrivals :=
      List.exists_mem_of_ne_nil _ none_yet
    have sent := sendable_messagesOf wellFormed positive
    have nonempty : 0 < sizes fieldId clientRank := by
      rw [← sent.size]
      exact sent.positive
    have start := records_melissaInitData options rfl nonempty
    obtain ⟨once, computed, stats⟩ := computeAll_stepStats sendable _ start.isValid start.size
    have same : stepStats data t = stepStats once t := (history.stats t below).trans stats.symm
    exact ⟨once, computed, stepStats_withoutQuantiles same⟩

/-- What the sample and the quantiles have no part in. -/
theorem recordedOnce_sampleFree {options : Options D} {commData : CommData} {names : List String}
    {sizes : Nat → Nat → Nat} {arrivals : List (Arrival D)} {server plain : Server D}
    (same : sampleFree server = sampleFree plain)
    (once : RecordedOnce options commData names sizes arrivals plain) :
    RecordedOnce options commData names sizes arrivals server := by
  intro fieldId clientRank known inside
  obtain ⟨data', entry', bits, stats⟩ := once fieldId clientRank known inside
  obtain ⟨data, entry, alike⟩ := entry_of_sampleFree same entry'
  obtain ⟨_, _, _, _, tables⟩ := withoutQuantiles_parts alike
  refine ⟨data, entry, ?_, ?_⟩
  · intro s t below
    rw [← bits s t below, bitOf, tables, bitOf]
  · rw [alike]
    exact stats

theorem recordedOnce_firstStart {options : Options D} {commData : CommData}
    {names : List String} {sizes : Nat → Nat → Nat} {arrivals : List (Arrival D)}
    {server : Server D}
    (once : RecordedOnce options.firstStart commData names sizes arrivals server) :
    RecordedOnce options commData names sizes arrivals server := once

end Statement

section OrderFree

variable {K : Type} [Field K] [LinearOrder K] [IsStrictOrderedRing K] [Libm K]

theorem values_eq_of_sameMessages {options : Options K} {commData : CommData}
    {names : List String} {sizes : Nat → Nat → Nat} {arrivals arrivals' : List (Arrival K)}
    {server server' : Server K}
    (inv : AllRecords options commData names sizes arrivals server)
    (inv' : AllRecords options commData names sizes arrivals' server')
    (duplicates : SameDuplicates arrivals)
    (same : ∀ m, m ∈ arrivals.map Arrival.m ↔ m ∈ arrivals'.map Arrival.m)
    {fieldId clientRank : Nat} (known : fieldId < names.length)
    (inside : clientRank < commData.clientCommSize) :
    ∃ data data', entryOf server.fields fieldId clientRank = some data ∧
      entryOf server'.fields fieldId clientRank = some data' ∧
      ∀ t < options.nbTimeSteps, values (stepStats data t) = values (stepStats data' t) := by
  obtain ⟨data, entry, history⟩ := inv.entries fieldId clientRank known inside
  obtain ⟨data', entry', history'⟩ := inv'.entries fieldId clientRank known inside
  refine ⟨data, data', entry, entry', ?_⟩
  have members (m : SimuData K) : m ∈ messagesOf names fieldId clientRank arrivals ↔
      m ∈ messagesOf names fieldId clientRank arrivals' := by
    simp only [messagesOf, List.mem_filter, same m]
  intro t below
  by_cases none_yet : messagesOf names fieldId clientRank arrivals = []
  · have none_yet' : messagesOf names fieldId clientRank arrivals' = [] := by
      rw [List.eq_nil_iff_forall_not_mem] at none_yet ⊢
      intro m member
      exact none_yet m ((members m).mpr member)
    rw [if_pos none_yet] at history
    rw [if_pos none_yet'] at history'
    rw [history, history']
  · have some_yet' : ¬ messagesOf names fieldId clientRank arrivals' = [] := by
      rw [List.eq_nil_iff_forall_not_mem] at none_yet ⊢
      intro absent
      exact none_yet fun m member => absent m ((members m).mp member)
    rw [if_neg none_yet] at history
    rw [if_neg some_yet'] at history'
    rw [history.stats t below, history'.stats t below]
    exact values_foldl_perm options _ SimuData.simuId (inVectTab options)
      (firstMessages_perm duplicates same fieldId clientRank t) _

end OrderFree

section Rounds

variable {D : Type} [Zero D] [Add D] [Sub D] [Mul D] [Div D] [NatCast D] [IntCast D]
  [Pow D ℕ] [LT D] [DecidableLT D] [LE D] [DecidableLE D] [Libm D]

/-- A run of the whole loop against the one without silence, which records its messages. -/
theorem allRecords_rounds (options : Options D) (commData : CommData) (names : List String)
    (sizes : Nat → Nat → Nat) (accepted : rejected options = false) (rounds : List (Round D))
    (formed : ∀ event ∈ eventsOf rounds,
      EventFormed options.firstStart commData names sizes event)
    (complete : Meets (roundStep noRestore) CompleteSample (freshServer options commData names)
      rounds) :
    ∃ server plain,
      run (roundStep noRestore) (freshServer options commData names) rounds = some server ∧
        AllRecords options.firstStart commData names sizes (arrivalsOf (eventsOf rounds)) plain ∧
        sampleFree server = sampleFree plain := by
  obtain ⟨plain, reached, inv⟩ :=
    allRecords_events options commData names sizes accepted (eventsOf rounds) formed
  obtain ⟨_, server, reached', same⟩ :=
    run_sampleFree (wholeSample_freshServer accepted commData names) complete reached
  exact ⟨server, plain, reached', inv, same⟩

end Rounds

/-- Exactly-once accumulation for every arithmetic, and its freedom from the order in exact
arithmetic, as long as no structure gets its first message after simulations have left the sample
of a silent launcher. -/
theorem exactlyOnce_orderFree (commData : CommData) (names : List String)
    (sizes : Nat → Nat → Nat) :
    (∀ {D : Type} [Zero D] [Add D] [Sub D] [Mul D] [Div D] [NatCast D] [IntCast D] [Pow D ℕ]
      [LT D] [DecidableLT D] [LE D] [DecidableLE D] [Libm D] (options : Options D)
      (rounds : List (Round D)), rejected options = false →
      (∀ event ∈ eventsOf rounds, EventFormed options commData names sizes event) →
      Meets (roundStep noRestore) CompleteSample (freshServer options commData names) rounds →
      ∃ server,
        run (roundStep noRestore) (freshServer options commData names) rounds = some server ∧
        RecordedOnce options commData names sizes (arrivalsOf (eventsOf rounds)) server) ∧
    (∀ {K : Type} [Field K] [LinearOrder K] [IsStrictOrderedRing K] [Libm K]
      (options : Options K) (rounds rounds' : List (Round K)), rejected options = false →
      (∀ event ∈ eventsOf rounds, EventFormed options commData names sizes event) →
      (∀ event ∈ eventsOf rounds', EventFormed options commData names sizes event) →
      Meets (roundStep noRestore) CompleteSample (freshServer options commData names) rounds →
      Meets (roundStep noRestore) CompleteSample (freshServer options commData names) rounds' →
      SameDuplicates (arrivalsOf (eventsOf rounds)) →
      (∀ m, m ∈ (arrivalsOf (eventsOf rounds)).map Arrival.m ↔
        m ∈ (arrivalsOf (eventsOf rounds')).map Arrival.m) →
      ∃ server server',
        run (roundStep noRestore) (freshServer options commData names) rounds = some server ∧
        run (roundStep noRestore) (freshServer options commData names) rounds' = some server' ∧
        ∀ fieldId clientRank, fieldId < names.length → clientRank < commData.clientCommSize →
          ∃ data data', entryOf server.fields fieldId clientRank = some data ∧
            entryOf server'.fields fieldId clientRank = some data' ∧
            ∀ t < options.nbTimeSteps, values (stepStats data t) = values (stepStats data' t)) := by
  constructor
  · intro D _ _ _ _ _ _ _ _ _ _ _ _ _ options rounds accepted formed complete
    have formed' := fun event member => eventFormed_firstStart (formed event member)
    obtain ⟨server, plain, reached, inv, same⟩ :=
      allRecords_rounds options commData names sizes accepted rounds formed' complete
    refine ⟨server, reached, recordedOnce_sampleFree same (recordedOnce_firstStart ?_)⟩
    exact recordedOnce_of_allRecords (wellFormed_arrivals formed') inv
  · intro K _ _ _ _ options rounds rounds' accepted formed formed' complete complete' duplicates
      members
    obtain ⟨server, plain, reached, inv, same⟩ := allRecords_rounds options commData names sizes
      accepted rounds (fun event member => eventFormed_firstStart (formed event member)) complete
    obtain ⟨server', plain', reached', inv', same'⟩ := allRecords_rounds options commData names
      sizes accepted rounds' (fun event member => eventFormed_firstStart (formed' event member))
      complete'
    refine ⟨server, server', reached, reached', ?_⟩
    intro fieldId clientRank known inside
    obtain ⟨old, old', entry, entry', equal⟩ :=
      values_eq_of_sameMessages inv inv' duplicates members known inside
    obtain ⟨data, here, alike⟩ := entry_of_sampleFree same entry
    obtain ⟨data', here', alike'⟩ := entry_of_sampleFree same' entry'
    refine ⟨data, data', here, here', ?_⟩
    intro t below
    calc
      values (stepStats data t) = values (stepStats old t) := values_withoutQuantiles alike t
      _ = values (stepStats old' t) := equal t below
      _ = values (stepStats data' t) := (values_withoutQuantiles alike' t).symm

section Example

private def sendingAt (now : ℚ) (timeStamp : Int) (simuId clientRank : Nat) (value : ℚ) : Round ℚ :=
  .work (.data now ⟨timeStamp, simuId, clientRank, 1, "heat", [value]⟩ ⟨simuId, "job", [1]⟩)

/-- Both simulations, a silence that finds no simulation without a job, and a repetition. -/
private def oneWay : List (Round ℚ) :=
  [sendingAt 1 0 0 0 3, sendingAt 2 0 1 0 5, .silence, .checkpoint 260, sendingAt 261 0 0 0 3]

private def otherWay : List (Round ℚ) := [sendingAt 1 0 1 0 5, sendingAt 2 0 0 0 3]

private theorem formed_sendingAt {now : ℚ} {timeStamp : Int} {simuId clientRank clients : Nat}
    {value : ℚ} {event : Event ℚ} (known : timeStamp = 0 ∧ simuId < 2 ∧ clientRank < clients)
    (sent : Round.event (sendingAt now timeStamp simuId clientRank value) = some event) :
    EventFormed twoByTwo ⟨0, 1, clients⟩ ["heat"] (fun _ _ => 1) event := by
  obtain ⟨rfl, simulation, rank⟩ := known
  cases sent
  exact ⟨⟨0, rfl, Int.le_refl 0, Nat.zero_lt_two, simulation, rfl, Nat.one_pos, rfl⟩, rank,
    simulation, Nat.le_refl 1⟩

private theorem formed_oneWay : ∀ event ∈ eventsOf oneWay,
    EventFormed twoByTwo ⟨0, 1, 1⟩ ["heat"] (fun _ _ => 1) event := by
  intro event member
  obtain ⟨round, listed, sent⟩ := List.mem_filterMap.mp member
  simp only [oneWay, List.mem_cons, List.not_mem_nil, or_false] at listed
  rcases listed with rfl | rfl | rfl | rfl | rfl
  · exact formed_sendingAt (by decide) sent
  · exact formed_sendingAt (by decide) sent
  · cases sent
  · cases sent
  · exact formed_sendingAt (by decide) sent

private theorem formed_otherWay : ∀ event ∈ eventsOf otherWay,
    EventFormed twoByTwo ⟨0, 1, 1⟩ ["heat"] (fun _ _ => 1) event := by
  intro event member
  obtain ⟨round, listed, sent⟩ := List.mem_filterMap.mp member
  simp only [otherWay, List.mem_cons, List.not_mem_nil, or_false] at listed
  rcases listed with rfl | rfl
  · exact formed_sendingAt (by decide) sent
  · exact formed_sendingAt (by decide) sent

private theorem complete_oneWay : Meets (roundStep noRestore) CompleteSample
    (freshServer twoByTwo ⟨0, 1, 1⟩ ["heat"]) oneWay := by
  have whole : ((run (roundStep noRestore) (freshServer twoByTwo ⟨0, 1, 1⟩ ["heat"])
      [sendingAt 1 0 0 0 3, sendingAt 2 0 1 0 5, .silence, .checkpoint 260]).map fun server =>
        (server.options.samplingSize, server.simulations.length)) = some (2, 2) := by
    decide +kernel
  have front : Meets (roundStep noRestore) CompleteSample
      (freshServer twoByTwo ⟨0, 1, 1⟩ ["heat"]) [sendingAt 1 0 0 0 3, sendingAt 2 0 1 0 5] :=
    meets_of_heard (wholeSample_freshServer (by decide) _ _) (by simp [sendingAt])
  have silent : Meets (roundStep noRestore) CompleteSample
      (freshServer twoByTwo ⟨0, 1, 1⟩ ["heat"])
      ([sendingAt 1 0 0 0 3, sendingAt 2 0 1 0 5] ++ [.silence]) :=
    meets_concat.mpr ⟨front, fun _ _ => trivial⟩
  have saved : Meets (roundStep noRestore) CompleteSample
      (freshServer twoByTwo ⟨0, 1, 1⟩ ["heat"])
      ([sendingAt 1 0 0 0 3, sendingAt 2 0 1 0 5, .silence] ++ [.checkpoint 260]) :=
    meets_concat.mpr ⟨silent, fun _ _ => trivial⟩
  refine meets_concat.mpr ⟨saved, ?_⟩
  intro mid reached
  obtain ⟨mid', reached', sizes⟩ := Option.map_eq_some_iff.mp whole
  cases Option.some.inj (reached.symm.trans reached')
  rw [Prod.mk.injEq] at sizes
  exact completeSample_of_whole (sizes.1.trans (by rw [sizes.2]; rfl)) _

private theorem complete_otherWay : Meets (roundStep noRestore) CompleteSample
    (freshServer twoByTwo ⟨0, 1, 1⟩ ["heat"]) otherWay :=
  meets_of_heard (wholeSample_freshServer (by decide) _ _) (by simp [otherWay, sendingAt])

theorem exactlyOnce_orderFree_twoByTwo :
    (∃ server, run (roundStep noRestore) (freshServer twoByTwo ⟨0, 1, 1⟩ ["heat"]) oneWay =
        some server ∧
      RecordedOnce twoByTwo ⟨0, 1, 1⟩ ["heat"] (fun _ _ => 1) (arrivalsOf (eventsOf oneWay))
        server) ∧
    ∃ server server',
      run (roundStep noRestore) (freshServer twoByTwo ⟨0, 1, 1⟩ ["heat"]) oneWay = some server ∧
      run (roundStep noRestore) (freshServer twoByTwo ⟨0, 1, 1⟩ ["heat"]) otherWay =
        some server' ∧
      ∀ fieldId clientRank, fieldId < 1 → clientRank < 1 →
        ∃ data data', entryOf server.fields fieldId clientRank = some data ∧
          entryOf server'.fields fieldId clientRank = some data' ∧
          ∀ t < 2, values (stepStats data t) = values (stepStats data' t) := by
  constructor
  · exact (exactlyOnce_orderFree ⟨0, 1, 1⟩ ["heat"] fun _ _ => 1).1 twoByTwo oneWay (by decide)
      formed_oneWay complete_oneWay
  · refine (exactlyOnce_orderFree ⟨0, 1, 1⟩ ["heat"] fun _ _ => 1).2 twoByTwo oneWay otherWay
      (by decide) formed_oneWay formed_otherWay complete_oneWay complete_otherWay ?_ ?_
    · intro a left b right
      change a ∈ [_, _, _] at left
      change b ∈ [_, _, _] at right
      simp only [List.mem_cons, List.not_mem_nil, or_false] at left right
      rcases left with rfl | rfl | rfl <;> rcases right with rfl | rfl | rfl <;> decide
    · intro m
      change m ∈ [_, _, _] ↔ m ∈ [_, _]
      simp only [List.mem_cons, List.not_mem_nil, or_false]
      constructor
      · intro member
        rcases member with rfl | rfl | rfl <;> simp
      · intro member
        rcases member with rfl | rfl <;> simp

/-- Client rank 1 starts after the launcher has been silent for 250 seconds, when simulation 1 has
no job yet. -/
private def lateStart : List (Round ℚ) := [sendingAt 1 0 0 0 3, .silence, sendingAt 252 0 0 1 4]

/-- The first message of the second structure finds a sample of one simulation, for which
`melissa_check_options` ends the process. -/
theorem not_exactlyOnce_lateRank : ¬ ∀ (options : Options ℚ) (commData : CommData)
    (names : List String) (sizes : Nat → Nat → Nat) (rounds : List (Round ℚ)),
    rejected options = false →
    (∀ event ∈ eventsOf rounds, EventFormed options commData names sizes event) →
    ∃ server, run (roundStep noRestore) (freshServer options commData names) rounds = some server ∧
      RecordedOnce options commData names sizes (arrivalsOf (eventsOf rounds)) server := by
  intro always
  have exits : run (roundStep noRestore) (freshServer twoByTwo ⟨0, 1, 2⟩ ["heat"]) lateStart =
      none := by decide +kernel
  have formed : ∀ event ∈ eventsOf lateStart,
      EventFormed twoByTwo ⟨0, 1, 2⟩ ["heat"] (fun _ _ => 1) event := by
    intro event member
    obtain ⟨round, listed, sent⟩ := List.mem_filterMap.mp member
    simp only [lateStart, List.mem_cons, List.not_mem_nil, or_false] at listed
    rcases listed with rfl | rfl | rfl
    · exact formed_sendingAt (by decide) sent
    · cases sent
    · exact formed_sendingAt (by decide) sent
  obtain ⟨server, reached, _⟩ :=
    always twoByTwo ⟨0, 1, 2⟩ ["heat"] (fun _ _ => 1) lateStart (by decide) formed
  rw [exits] at reached
  cases reached

end Example

end Melissa
