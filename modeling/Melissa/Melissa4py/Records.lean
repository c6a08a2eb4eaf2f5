import Melissa.Base.FirstSeen
import Melissa.Melissa4py.Server
import Mathlib.Algebra.Order.BigOperators.Group.List

/-! What the records of the Python server hold: the pairs of field and time step whose message
has come in. -/

namespace Melissa

namespace Melissa4py

/-- Simulation, field and time step of a message. -/
abbrev Key := Int × List Char × Nat

def SimulationData.key (message : SimulationData) : Key :=
  (message.simulationId, message.fieldName, message.timestep.toNat)

section Lists

theorem lookup_map_of_mem {β : Type} {names : List (List Char)} {name : List Char}
    (member : name ∈ names) (f : List Char → β) :
    (names.map fun name => (name, f name)).lookup name = some (f name) := by
  induction names with
  | nil => cases member
  | cons first rest ih =>
      rw [List.map_cons]
      by_cases same : name = first
      · subst same
        exact List.lookup_cons_self
      · rw [List.lookup_cons, beq_false_of_ne same]
        exact ih ((List.mem_cons.mp member).resolve_left same)

/-- Numbers that are at most `n` add up to `n` each only if they all are `n`. -/
theorem sum_eq_length_mul_iff {α : Type} {items : List α} {f : α → Nat} {n : Nat}
    (bounded : ∀ item ∈ items, f item ≤ n) :
    (items.map f).sum = items.length * n ↔ ∀ item ∈ items, f item = n := by
  induction items with
  | nil => simp
  | cons item rest ih =>
      rw [List.forall_mem_cons] at bounded ⊢
      have total : (rest.map f).sum ≤ rest.length * n := by
        have each := List.sum_le_card_nsmul (rest.map f) n
          (by simpa using bounded.2)
        simpa using each
      rw [List.map_cons, List.sum_cons, List.length_cons, Nat.succ_mul, ← ih bounded.2]
      constructor
      · intro equal
        omega
      · intro equal
        omega

theorem count_decide_eq_iff {n : Nat} {P : Nat → Prop} [DecidablePred P] :
    ((List.range n).map fun t => decide (P t)).count true = n ↔ ∀ t < n, P t := by
  have counted := List.count_eq_length (a := true) (l := (List.range n).map fun t => decide (P t))
  rw [List.length_map, List.length_range] at counted
  rw [counted]
  simp [eq_comm]

end Lists

section Flags

variable (fields : List (List Char)) (nbTimeSteps : Nat)

/-- The arrays of simulation `s` when the messages with the given keys have come in. -/
def flagsOf (received : List Key) (s : Int) : List (List Char × List Bool) :=
  fields.dedup.map fun field =>
    (field, (List.range nbTimeSteps).map fun timestep => decide ((s, field, timestep) ∈ received))

/-- All messages of simulation `s` have come in. -/
def AllReceived (received : List Key) (s : Int) : Prop :=
  ∀ field ∈ fields, ∀ timestep < nbTimeSteps, (s, field, timestep) ∈ received

instance (received : List Key) (s : Int) : Decidable (AllReceived fields nbTimeSteps received s) :=
  inferInstanceAs (Decidable (∀ field ∈ fields, ∀ timestep < nbTimeSteps, _ ∈ _))

/-- The record of simulation `s`. -/
structure Holds (received : List Key) (s : Int) (simulation : Simulation) : Prop where
  ntimesteps : simulation.ntimesteps = nbTimeSteps
  timesteps : simulation.timesteps = flagsOf fields nbTimeSteps received s

variable {fields nbTimeSteps} {received : List Key} {s : Int} {simulation : Simulation}

theorem create_holds (fresh : ∀ key ∈ received, key.1 ≠ s) (now : ℚ) :
    Holds fields nbTimeSteps received s (Simulation.create s fields nbTimeSteps now) := by
  refine ⟨rfl, ?_⟩
  rw [Simulation.create, flagsOf]
  apply List.map_congr_left
  intro field _
  congr 1
  apply List.ext_getElem
  · simp
  · intro t _ _
    have absent : (s, field, t) ∉ received := fun member => fresh _ member rfl
    simp [absent]

theorem Holds.received_eq (holds : Holds fields nbTimeSteps received s simulation)
    {field : List Char} (known : field ∈ fields) {timestep : Nat}
    (inside : timestep < nbTimeSteps) :
    simulation.received field timestep = some (decide ((s, field, timestep) ∈ received)) := by
  rw [Simulation.received, holds.timesteps, flagsOf, lookup_map_of_mem (List.mem_dedup.mpr known)]
  simp [inside]

theorem Holds.finished (holds : Holds fields nbTimeSteps received s simulation) :
    simulation.finished = decide (AllReceived fields nbTimeSteps received s) := by
  rw [Bool.eq_iff_iff, decide_eq_true_iff, Simulation.finished, beq_iff_eq, holds.ntimesteps,
    holds.timesteps, sum_eq_length_mul_iff]
  · simp only [flagsOf, List.forall_mem_map, count_decide_eq_iff, List.mem_dedup]
    rfl
  · intro entry member
    obtain ⟨field, _, rfl⟩ := List.mem_map.mp member
    have bound := List.count_le_length (a := true)
      (l := (List.range nbTimeSteps).map fun timestep => decide ((s, field, timestep) ∈ received))
    simpa using bound

theorem Holds.mark (holds : Holds fields nbTimeSteps received s simulation) (field : List Char)
    (timestep : Nat) (now : ℚ) :
    Holds fields nbTimeSteps (received ++ [(s, field, timestep)]) s
      (simulation.markMessageReceived field timestep now) := by
  refine ⟨holds.ntimesteps, ?_⟩
  rw [Simulation.markMessageReceived, holds.timesteps, flagsOf, flagsOf, List.map_map]
  apply List.map_congr_left
  intro other _
  by_cases same : other = field
  · subst same
    simp only [Function.comp_apply, if_true]
    congr 1
    apply List.ext_getElem
    · simp
    · intro t _ _
      by_cases here : timestep = t
      · subst here
        simp
      · simp [List.getElem_set_ne here, Ne.symm here]
  · simp only [Function.comp_apply, if_neg same]
    congr 1
    apply List.map_congr_left
    intro t _
    simp [same]

/-- A message of another simulation changes nothing. -/
theorem Holds.other (holds : Holds fields nbTimeSteps received s simulation) {key : Key}
    (apart : key.1 ≠ s) : Holds fields nbTimeSteps (received ++ [key]) s simulation := by
  refine ⟨holds.ntimesteps, ?_⟩
  rw [holds.timesteps, flagsOf, flagsOf]
  apply List.map_congr_left
  intro field _
  congr 1
  apply List.map_congr_left
  intro t _
  have different : (s, field, t) ≠ key := by
    rintro rfl
    exact apart rfl
  simp [different]

end Flags

section Handler

open MelissaServer

variable (fields : List (List Char)) (nbTimeSteps : Nat)

/-- Every simulation that has sent something has a record, and every record is right. -/
structure Shaped (received : List Key) (server : MelissaServer) : Prop where
  sameFields : server.fields = fields
  sameSteps : server.nbTimeSteps = nbTimeSteps
  records : ∀ s simulation, server.simulations.lookup s = some simulation →
    Holds fields nbTimeSteps received s simulation
  known : ∀ key ∈ received, key.1 ∈ server.simulations

/-- What a message that comes in for the first time does to the server. -/
structure Advanced (received : List Key) (message : SimulationData)
    (server server' : MelissaServer) : Prop where
  shaped : Shaped fields nbTimeSteps (received ++ [message.key]) server'
  keys : ∀ s, s ∈ server'.simulations ↔ s = message.simulationId ∨ s ∈ server.simulations
  statuses : server'.statuses = server.statuses ++
    (if message.simulationId ∈ server.simulations then []
      else [(message.simulationId, .running)]) ++
    (if AllReceived fields nbTimeSteps (received ++ [message.key]) message.simulationId then
      [(message.simulationId, .finished)] else [])

variable {fields nbTimeSteps} {received : List Key} {server : MelissaServer}
  {message : SimulationData}

theorem lookup_of_mem {simulations : AList fun _ : Int => Simulation} {s : Int}
    (known : s ∈ simulations) : ∃ simulation, simulations.lookup s = some simulation :=
  Option.isSome_iff_exists.mp (AList.lookup_isSome.mpr known)

theorem addSimulation_known {s : Int} (known : s ∈ server.simulations) (now : ℚ) :
    server.addSimulation s now = server := by
  rw [MelissaServer.addSimulation, if_pos (AList.lookup_isSome.mpr known)]

theorem addSimulation_statuses (s : Int) (now : ℚ) :
    (server.addSimulation s now).statuses =
      server.statuses ++ if s ∈ server.simulations then [] else [(s, .running)] := by
  by_cases known : s ∈ server.simulations
  · rw [addSimulation_known known, if_pos known, List.append_nil]
  · rw [MelissaServer.addSimulation, if_neg (fun some => known (AList.lookup_isSome.mp some)),
      if_neg known]

theorem addSimulation_keys (s other : Int) (now : ℚ) :
    other ∈ (server.addSimulation s now).simulations ↔ other = s ∨ other ∈ server.simulations := by
  by_cases known : s ∈ server.simulations
  · rw [addSimulation_known known]
    constructor
    · exact Or.inr
    · rintro (rfl | old)
      · exact known
      · exact old
  · rw [MelissaServer.addSimulation, if_neg (fun some => known (AList.lookup_isSome.mp some))]
    exact AList.mem_insert _

theorem addSimulation_shaped (shaped : Shaped fields nbTimeSteps received server) (s : Int)
    (now : ℚ) : Shaped fields nbTimeSteps received (server.addSimulation s now) := by
  by_cases known : s ∈ server.simulations
  · rwa [addSimulation_known known]
  · have keys (other : Int) : other ∈ (server.addSimulation s now).simulations ↔
        other = s ∨ other ∈ server.simulations := addSimulation_keys s other now
    rw [MelissaServer.addSimulation,
      if_neg (fun some => known (AList.lookup_isSome.mp some))] at keys ⊢
    refine ⟨shaped.sameFields, shaped.sameSteps, ?_, fun key member =>
      (keys key.1).mpr (Or.inr (shaped.known key member))⟩
    intro other simulation here
    by_cases same : other = s
    · subst same
      rw [AList.lookup_insert] at here
      rw [← Option.some.inj here, shaped.sameFields, shaped.sameSteps]
      apply create_holds
      rintro key member rfl
      exact known (shaped.known key member)
    · rw [AList.lookup_insert_ne same] at here
      exact shaped.records other simulation here

/-- A record is written, perhaps after one more message of its simulation. -/
theorem Shaped.insert (shaped : Shaped fields nbTimeSteps received server) {received' : List Key}
    {s : Int} (others : ∀ other simulation, other ≠ s →
      Holds fields nbTimeSteps received other simulation →
        Holds fields nbTimeSteps received' other simulation)
    (keys : ∀ key ∈ received', key.1 = s ∨ key ∈ received) {simulation : Simulation}
    (holds : Holds fields nbTimeSteps received' s simulation) :
    Shaped fields nbTimeSteps received'
      { server with simulations := server.simulations.insert s simulation } := by
  refine ⟨shaped.sameFields, shaped.sameSteps, ?_, ?_⟩
  · intro other found here
    by_cases same : other = s
    · subst same
      rw [AList.lookup_insert] at here
      rwa [← Option.some.inj here]
    · rw [AList.lookup_insert_ne same] at here
      exact others other found same (shaped.records other found here)
  · intro key member
    apply (AList.mem_insert _).mpr
    rcases keys key member with own | old
    · exact Or.inl own
    · exact Or.inr (shaped.known key old)

theorem handleSimulationData_refused (shaped : Shaped fields nbTimeSteps received server)
    (refused : ¬ Admitted fields nbTimeSteps message) (metadata : Metadata) (now : ℚ) :
    server.handleSimulationData message metadata now = some (server, none) := by
  rw [handleSimulationData, shaped.sameFields, shaped.sameSteps, if_neg refused]

theorem Admitted.inside (admitted : Admitted fields nbTimeSteps message) :
    message.timestep.toNat < nbTimeSteps := by
  have bounds := admitted.1
  omega

theorem handleSimulationData_repeated (shaped : Shaped fields nbTimeSteps received server)
    (admitted : Admitted fields nbTimeSteps message) (old : message.key ∈ received)
    (metadata : Metadata) (now : ℚ) :
    server.handleSimulationData message metadata now = some (server, none) := by
  have known : message.simulationId ∈ server.simulations := shaped.known message.key old
  obtain ⟨simulation, found⟩ := lookup_of_mem known
  have flag := (shaped.records _ _ found).received_eq admitted.2 admitted.inside
  rw [handleSimulationData, shaped.sameFields, shaped.sameSteps, if_pos admitted]
  simp only [addSimulation_known known, found, flag, Option.bind_eq_bind, Option.bind_some]
  rw [if_pos]
  exact decide_eq_true old

/-- The record after the launcher has been asked for what is missing. -/
theorem completeRecord_shaped (shaped : Shaped fields nbTimeSteps received server) {s : Int}
    {simulation : Simulation} (found : server.simulations.lookup s = some simulation)
    (metadata : Metadata) :
    ∃ server' simulation',
      server.completeRecord simulation s metadata = some server' ∧
      server'.simulations.lookup s = some simulation' ∧
      server'.statuses = server.statuses ∧
      (∀ other, other ∈ server'.simulations ↔ other ∈ server.simulations) ∧
      Shaped fields nbTimeSteps received server' := by
  by_cases missing : simulation.parameters.isNone
  · have holds := shaped.records s simulation found
    rw [completeRecord, if_pos missing, requestSimulationMetadata, found]
    refine ⟨_, _, rfl, AList.lookup_insert _, rfl, ?_, ?_⟩
    · intro other
      rw [AList.mem_insert]
      constructor
      · rintro (rfl | old)
        · exact AList.lookup_isSome.mp (by rw [found]; rfl)
        · exact old
      · exact Or.inr
    · exact shaped.insert (fun _ _ _ => id) (fun _ => Or.inr) ⟨holds.ntimesteps, holds.timesteps⟩
  · rw [completeRecord, if_neg missing]
    exact ⟨server, simulation, rfl, found, rfl, fun _ => Iff.rfl, shaped⟩

theorem handleSimulationData_new (shaped : Shaped fields nbTimeSteps received server)
    (admitted : Admitted fields nbTimeSteps message) (new : message.key ∉ received)
    (metadata : Metadata) (now : ℚ) :
    ∃ server' parameters,
      server.handleSimulationData message metadata now =
        some (server', if message.dataSize > 0 then
          some { message := message, parameters := parameters } else none) ∧
      Advanced fields nbTimeSteps received message server server' := by
  let id := message.simulationId
  have added := addSimulation_shaped shaped id now
  have keys (s : Int) : s ∈ (server.addSimulation id now).simulations ↔
      s = id ∨ s ∈ server.simulations := addSimulation_keys id s now
  obtain ⟨simulation, found⟩ := lookup_of_mem ((keys id).mpr (Or.inl rfl))
  have flag := (added.records _ _ found).received_eq admitted.2 admitted.inside
  have marked := (added.records _ _ found).mark message.fieldName message.timestep.toNat now
  have stored := added.insert (fun other _ apart holds => holds.other (Ne.symm apart))
    (by
      intro key member
      rcases List.mem_append.mp member with old | own
      · exact Or.inr old
      · exact Or.inl (by rw [List.mem_singleton.mp own])) marked
  obtain ⟨server', simulation', asked, present, statuses, others, shaped'⟩ :=
    completeRecord_shaped stored (AList.lookup_insert _) metadata
  have complete := (shaped'.records _ _ present).finished
  have fresh : decide ((message.simulationId, message.fieldName, message.timestep.toNat) ∈
      received) = false := decide_eq_false new
  let server'' := if AllReceived fields nbTimeSteps (received ++ [message.key]) id then
    { server' with statuses := server'.statuses ++ [(id, .finished)] } else server'
  refine ⟨server'', simulation'.parameters, ?_, ?_⟩
  · rw [handleSimulationData, shaped.sameFields, shaped.sameSteps, if_pos admitted]
    simp only [id, found, flag, fresh, asked, present, complete, Option.bind_eq_bind,
      Option.bind_some, Bool.false_eq_true, if_false, decide_eq_true_eq]
    rfl
  · have announced : server'.statuses =
        server.statuses ++ if id ∈ server.simulations then [] else [(id, .running)] :=
      statuses.trans (addSimulation_statuses id now)
    constructor
    · simp only [server'']
      split
      · exact ⟨shaped'.sameFields, shaped'.sameSteps, shaped'.records, shaped'.known⟩
      · exact shaped'
    · intro s
      have same : server''.simulations = server'.simulations := by
        simp only [server'']
        split <;> rfl
      rw [same, others, AList.mem_insert, keys s]
      constructor
      · rintro (own | own | old)
        · exact Or.inl own
        · exact Or.inl own
        · exact Or.inr old
      · rintro (own | old)
        · exact Or.inl own
        · exact Or.inr (Or.inr old)
    · simp only [server'']
      split
      · rw [announced]
      · rw [announced, List.append_nil]

end Handler

end Melissa4py

end Melissa
