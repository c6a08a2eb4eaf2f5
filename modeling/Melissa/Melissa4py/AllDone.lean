import Melissa.Melissa4py.Progress
import Mathlib.Data.Finset.Card
import Mathlib.Order.Interval.Finset.Basic
import Mathlib.Data.Int.Interval

/-! When `all_done` of the Python server can be trusted: it compares the number of records with
a sample size that every DROP decrements. -/

namespace Melissa

namespace Melissa4py

open Runs MelissaServer

section Sound

variable (fields : List (List Char)) (nbTimeSteps n : Nat)

/-- The simulations of the DROP messages, as often as they come. -/
def dropIds (events : List Event) : List Int :=
  events.filterMap fun
    | .job _ _ => none
    | .drop simulationId => some simulationId
    | .data _ _ _ => none

def InSample (s : Int) : Prop := 0 ≤ s ∧ s < n

instance (s : Int) : Decidable (InSample n s) := inferInstanceAs (Decidable (_ ∧ _))

/-- Whenever `all_done` returns true, every simulation of the sample that was never dropped has
a record and has finished or timed out. -/
def AllDoneSound (events : List Event) : Prop :=
  ∀ front back, events = front ++ back →
    ∀ session, run step (startSession fields nbTimeSteps n) front = some session →
      ∀ now, session.server.allDone now = true →
        ∀ s, InSample n s → s ∉ dropIds front →
          ∃ simulation, session.server.simulations.lookup s = some simulation ∧
            (simulation.finished = true ∨ simulation.crashed now = true)

/-- The simulation an event is about, where it creates a record or drops it. -/
def Event.subject : Event → Option Int
  | .job jobDetails _ => some jobDetails.simulationId
  | .drop simulationId => some simulationId
  | .data message _ _ =>
      if Admitted fields nbTimeSteps message then some message.simulationId else none

/-- Every event is about a simulation of the sample that has not been dropped before. -/
def Orderly (events : List Event) : Prop :=
  ∀ front event back, events = front ++ event :: back →
    ∀ s, event.subject fields nbTimeSteps = some s → InSample n s ∧ s ∉ dropIds front

end Sound

section Sizes

variable {fields : List (List Char)} {nbTimeSteps n : Nat}

/-- What no data message touches. -/
structure SameStudy (server server' : MelissaServer) : Prop where
  sampleSize : server'.sampleSize = server.sampleSize
  sameFields : server'.fields = server.fields
  sameSteps : server'.nbTimeSteps = server.nbTimeSteps

theorem SameStudy.trans {first second third : MelissaServer} (left : SameStudy first second)
    (right : SameStudy second third) : SameStudy first third :=
  ⟨right.sampleSize.trans left.sampleSize, right.sameFields.trans left.sameFields,
    right.sameSteps.trans left.sameSteps⟩

theorem addSimulation_same (server : MelissaServer) (s : Int) (now : ℚ) :
    SameStudy server (server.addSimulation s now) := by
  rw [MelissaServer.addSimulation]
  split <;> exact ⟨rfl, rfl, rfl⟩

theorem completeRecord_keys {server server' : MelissaServer} {simulation : Simulation} {id : Int}
    {metadata : Metadata}
    (completed : server.completeRecord simulation id metadata = some server') :
    SameStudy server server' ∧ ∀ s ∈ server'.simulations, s = id ∨ s ∈ server.simulations := by
  rw [completeRecord] at completed
  split at completed
  · rw [requestSimulationMetadata, Option.map_eq_some_iff] at completed
    obtain ⟨record, _, rfl⟩ := completed
    exact ⟨⟨rfl, rfl, rfl⟩, fun s member => (AList.mem_insert _).mp member⟩
  · rw [← Option.some.inj completed]
    exact ⟨⟨rfl, rfl, rfl⟩, fun s => Or.inr⟩

/-- A data message adds at most the record of its own simulation. -/
theorem handleSimulationData_keys {server server' : MelissaServer} {message : SimulationData}
    {metadata : Metadata} {now : ℚ} {delivered : Option Delivered}
    (handled : server.handleSimulationData message metadata now = some (server', delivered)) :
    SameStudy server server' ∧ ∀ s ∈ server'.simulations, s ∈ server.simulations ∨
      Admitted server.fields server.nbTimeSteps message ∧ s = message.simulationId := by
  have added (s : Int) : s ∈ (server.addSimulation message.simulationId now).simulations ↔
      s = message.simulationId ∨ s ∈ server.simulations :=
    addSimulation_keys message.simulationId s now
  have kept := addSimulation_same server message.simulationId now
  unfold handleSimulationData at handled
  split at handled
  · rename_i admitted
    simp only [Option.bind_eq_bind, Option.bind_eq_some_iff] at handled
    obtain ⟨simulation, _, flag, _, handled⟩ := handled
    split at handled
    · cases handled
      refine ⟨kept, ?_⟩
      intro s member
      rcases (added s).mp member with own | old
      · exact Or.inr ⟨admitted, own⟩
      · exact Or.inl old
    · simp only [Option.bind_eq_some_iff, Option.some.injEq, Prod.mk.injEq] at handled
      obtain ⟨completed, asked, record, _, result, _⟩ := handled
      obtain ⟨same, keys⟩ := completeRecord_keys asked
      have last : SameStudy completed server' ∧
          server'.simulations = completed.simulations := by
        rw [← result]
        split <;> exact ⟨⟨rfl, rfl, rfl⟩, rfl⟩
      have stored : SameStudy (server.addSimulation message.simulationId now) completed :=
        ⟨same.sampleSize, same.sameFields, same.sameSteps⟩
      refine ⟨kept.trans (stored.trans last.1), ?_⟩
      intro s member
      rw [last.2] at member
      rcases keys s member with own | member
      · exact Or.inr ⟨admitted, own⟩
      · rcases (AList.mem_insert _).mp member with own | member
        · exact Or.inr ⟨admitted, own⟩
        · rcases (added s).mp member with own | old
          · exact Or.inr ⟨admitted, own⟩
          · exact Or.inl old
  · cases handled
    exact ⟨⟨rfl, rfl, rfl⟩, fun s => Or.inl⟩

/-- The records and the sample size, when no event concerns a dropped simulation. -/
structure Sizes (fields : List (List Char)) (nbTimeSteps n : Nat) (past : List Event)
    (server : MelissaServer) : Prop where
  sameFields : server.fields = fields
  sameSteps : server.nbTimeSteps = nbTimeSteps
  sampleSize : server.sampleSize = n - (dropIds past).length
  nodup : (dropIds past).Nodup
  dropped : ∀ s ∈ dropIds past, InSample n s
  keys : ∀ s ∈ server.simulations, InSample n s ∧ s ∉ dropIds past

theorem start_sizes : Sizes fields nbTimeSteps n [] (MelissaServer.start fields nbTimeSteps n) := by
  refine ⟨rfl, rfl, ?_, List.nodup_nil, ?_, ?_⟩
  · simp [MelissaServer.start, dropIds]
  · intro s member
    cases member
  · intro s member
    cases member

theorem dropIds_concat (events : List Event) (event : Event) :
    dropIds (events ++ [event]) = dropIds events ++ dropIds [event] := List.filterMap_append

/-- An event that drops nothing adds at most the record of its simulation. -/
theorem Sizes.kept {past : List Event} {server server' : MelissaServer} {event : Event}
    (sizes : Sizes fields nbTimeSteps n past server) (noDrop : dropIds [event] = [])
    (turn : ∀ s, event.subject fields nbTimeSteps = some s → InSample n s ∧ s ∉ dropIds past)
    (same : SameStudy server server')
    (keys : ∀ s ∈ server'.simulations,
      s ∈ server.simulations ∨ event.subject fields nbTimeSteps = some s) :
    Sizes fields nbTimeSteps n (past ++ [event]) server' := by
  have drops : dropIds (past ++ [event]) = dropIds past := by
    rw [dropIds_concat, noDrop, List.append_nil]
  constructor
  · exact same.sameFields.trans sizes.sameFields
  · exact same.sameSteps.trans sizes.sameSteps
  · rw [drops]
    exact same.sampleSize.trans sizes.sampleSize
  · rw [drops]
    exact sizes.nodup
  · rw [drops]
    exact sizes.dropped
  · intro s member
    rw [drops]
    rcases keys s member with old | own
    · exact sizes.keys s old
    · exact turn s own

theorem Sizes.drop {past : List Event} {server : MelissaServer} {simulationId : Int}
    (sizes : Sizes fields nbTimeSteps n past server) (inside : InSample n simulationId)
    (first : simulationId ∉ dropIds past) :
    Sizes fields nbTimeSteps n (past ++ [.drop simulationId]) (server.handleDrop simulationId) := by
  have drops : dropIds (past ++ [.drop simulationId]) = dropIds past ++ [simulationId] :=
    dropIds_concat past (.drop simulationId)
  constructor
  · exact sizes.sameFields
  · exact sizes.sameSteps
  · change server.sampleSize - 1 = _
    rw [drops, sizes.sampleSize, List.length_append, List.length_singleton]
    push_cast
    omega
  · rw [drops, ← List.concat_eq_append]
    exact sizes.nodup.concat first
  · rw [drops, List.forall_mem_append, List.forall_mem_singleton]
    exact ⟨sizes.dropped, inside⟩
  · intro s member
    obtain ⟨apart, old⟩ := AList.mem_erase.mp member
    obtain ⟨inside', kept⟩ := sizes.keys s old
    rw [drops, List.mem_append, List.mem_singleton, not_or]
    exact ⟨inside', kept, apart⟩

theorem step_sizes {past : List Event} {session session' : Session} {event : Event}
    (sizes : Sizes fields nbTimeSteps n past session.server)
    (turn : ∀ s, event.subject fields nbTimeSteps = some s → InSample n s ∧ s ∉ dropIds past)
    (taken : step session event = some session') :
    Sizes fields nbTimeSteps n (past ++ [event]) session'.server := by
  cases event with
  | job jobDetails now =>
      have same : SameStudy session.server (session.server.handleJob jobDetails now) :=
        ⟨rfl, rfl, rfl⟩
      cases taken
      apply sizes.kept rfl turn same
      intro s member
      rcases (AList.mem_insert _).mp member with rfl | old
      · exact Or.inr rfl
      · exact Or.inl old
  | drop simulationId =>
      obtain ⟨inside, first⟩ := turn simulationId rfl
      cases taken
      exact sizes.drop inside first
  | data message metadata now =>
      rw [step, Option.map_eq_some_iff] at taken
      obtain ⟨result, handled, rfl⟩ := taken
      obtain ⟨same, keys⟩ := handleSimulationData_keys handled
      rw [sizes.sameFields, sizes.sameSteps] at keys
      apply sizes.kept rfl turn same
      intro s member
      rcases keys s member with old | ⟨admitted, rfl⟩
      · exact Or.inl old
      · exact Or.inr (if_pos admitted)

theorem run_sizes {events : List Event} (orderly : Orderly fields nbTimeSteps n events)
    {session : Session}
    (reached : run step (startSession fields nbTimeSteps n) events = some session) :
    Sizes fields nbTimeSteps n events session.server := by
  induction events using List.reverseRecOn generalizing session with
  | nil =>
      cases reached
      exact start_sizes
  | append_singleton events event ih =>
      obtain ⟨before, reached', taken⟩ := run_concat_eq_some.mp reached
      have earlier : Orderly fields nbTimeSteps n events := by
        rintro front other back rfl
        exact orderly front other (back ++ [event]) (by simp)
      exact step_sizes (ih earlier reached') (orderly events event [] rfl) taken

/-- As many records as the sample size says leave no simulation out. -/
theorem Sizes.covers {past : List Event} {server : MelissaServer}
    (sizes : Sizes fields nbTimeSteps n past server)
    (enough : server.sampleSize ≤ server.simulations.entries.length) {s : Int}
    (inside : InSample n s) (kept : s ∉ dropIds past) : s ∈ server.simulations := by
  let recorded := server.simulations.keys.toFinset
  let expected := Finset.Ico (0 : Int) n \ (dropIds past).toFinset
  have subset : recorded ⊆ expected := by
    intro key member
    obtain ⟨range, kept⟩ := sizes.keys key (List.mem_toFinset.mp member)
    rw [Finset.mem_sdiff, Finset.mem_Ico, List.mem_toFinset]
    exact ⟨range, kept⟩
  have dropped : (dropIds past).toFinset ⊆ Finset.Ico (0 : Int) n := by
    intro key member
    exact Finset.mem_Ico.mpr (sizes.dropped key (List.mem_toFinset.mp member))
  have number : recorded.card = server.simulations.entries.length := by
    rw [List.toFinset_card_of_nodup server.simulations.keys_nodup, AList.keys, List.keys,
      List.length_map]
  have total : expected.card = n - (dropIds past).length := by
    rw [Finset.card_sdiff_of_subset dropped, Int.card_Ico,
      List.toFinset_card_of_nodup sizes.nodup, sub_zero, Int.toNat_natCast]
  have all : recorded = expected := by
    apply Finset.eq_of_subset_of_card_le subset
    rw [number, total]
    have size := sizes.sampleSize
    omega
  have member : s ∈ recorded := by
    rw [all, Finset.mem_sdiff, Finset.mem_Ico, List.mem_toFinset]
    exact ⟨inside, kept⟩
  exact List.mem_toFinset.mp member

theorem allDone_parts {server : MelissaServer} {now : ℚ} (done : server.allDone now = true) :
    server.sampleSize ≤ server.simulations.entries.length ∧
      ∀ s simulation, server.simulations.lookup s = some simulation →
        simulation.finished = true ∨ simulation.crashed now = true := by
  rw [allDone] at done
  split at done
  · cases done
  · rename_i enough
    refine ⟨by omega, ?_⟩
    intro s simulation here
    have each := List.all_eq_true.mp done ⟨s, simulation⟩ (AList.mem_lookup_iff.mp here)
    simpa using each

/-- `all_done` is right in every state of a run in which no simulation is dropped twice or heard
of again after its DROP. -/
theorem allDoneSound_of_orderly {events : List Event}
    (orderly : Orderly fields nbTimeSteps n events) : AllDoneSound fields nbTimeSteps n events := by
  rintro front back rfl session reached now done s inside kept
  have earlier : Orderly fields nbTimeSteps n front := by
    rintro before event after rfl
    exact orderly before event (after ++ back) (by simp)
  obtain ⟨enough, each⟩ := allDone_parts done
  have known := (run_sizes earlier reached).covers enough inside kept
  obtain ⟨simulation, here⟩ := lookup_of_mem known
  exact ⟨simulation, here, each s simulation here⟩

/-- Simulation 0 sends its only message, simulation 1 is dropped. -/
def dropRun : List Event := [.data (heatMessage 0 0) oneParameter 0, .drop 1]

theorem allDoneSound_dropRun : Orderly [['h', 'e', 'a', 't']] 1 2 dropRun ∧
    AllDoneSound [['h', 'e', 'a', 't']] 1 2 dropRun := by
  have orderly : Orderly [['h', 'e', 'a', 't']] 1 2 dropRun := by
    intro front event back cut s about
    rcases front with _ | ⟨first, _ | ⟨second, rest⟩⟩
    · cases cut
      cases about
      exact ⟨by decide, by decide⟩
    · cases cut
      cases about
      exact ⟨by decide, by decide⟩
    · simp [dropRun] at cut
  exact ⟨orderly, allDoneSound_of_orderly orderly⟩

/-- Simulation 0 of two is dropped twice: the study is done before simulation 1 is heard of. -/
theorem not_allDoneSound_droppedTwice :
    ¬ AllDoneSound [['h', 'e', 'a', 't']] 1 2 [.drop 0, .drop 0] := by
  intro sound
  obtain ⟨simulation, here, _⟩ := sound [.drop 0, .drop 0] [] rfl _ rfl 0 (by decide) 1
    (by decide) (by decide)
  cases here

end Sizes

end Melissa4py

end Melissa
