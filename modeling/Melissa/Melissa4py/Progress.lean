import Melissa.Melissa4py.Records

/-! Runs of the Python server without DROP: every time step is consumed once and completion is
announced once, but a simulation the launcher has announced is not announced back. -/

namespace Melissa

namespace Melissa4py

open Runs FirstSeen MelissaServer

section History

def Event.IsDrop : Event → Prop
  | .job _ _ => False
  | .drop _ => True
  | .data _ _ _ => False

instance : (event : Event) → Decidable event.IsDrop
  | .job _ _ => isFalse id
  | .drop _ => isTrue trivial
  | .data _ _ _ => isFalse id

variable (fields : List (List Char)) (nbTimeSteps : Nat)

/-- The data message of an event, if it passes the filters. -/
def Event.admitted : Event → Option SimulationData
  | .job _ _ => none
  | .drop _ => none
  | .data message _ _ => if Admitted fields nbTimeSteps message then some message else none

/-- The data messages that pass the filters, in their order of arrival. -/
def admittedMessages (events : List Event) : List SimulationData :=
  events.filterMap (Event.admitted fields nbTimeSteps)

def receivedKeys (events : List Event) : List Key :=
  (admittedMessages fields nbTimeSteps events).map SimulationData.key

/-- The simulations the launcher has sent a JOB for. -/
def jobIds (events : List Event) : List Int :=
  events.filterMap fun
    | .job jobDetails _ => some jobDetails.simulationId
    | .drop _ => none
    | .data _ _ _ => none

/-- The simulations that have sent an admitted message. -/
def senders (events : List Event) : List Int :=
  (admittedMessages fields nbTimeSteps events).map SimulationData.simulationId

/-- Simulation `s` has sent all its messages. -/
def Completed (events : List Event) (s : Int) : Prop :=
  s ∈ senders fields nbTimeSteps events ∧
    AllReceived fields nbTimeSteps (receivedKeys fields nbTimeSteps events) s

instance (events : List Event) (s : Int) : Decidable (Completed fields nbTimeSteps events s) :=
  inferInstanceAs (Decidable (_ ∧ _))

end History

section Tracks

variable {fields : List (List Char)} {nbTimeSteps : Nat}

theorem Holds.congr {received received' : List Key} (same : ∀ key, key ∈ received' ↔ key ∈ received)
    {s : Int} {simulation : Simulation} (holds : Holds fields nbTimeSteps received s simulation) :
    Holds fields nbTimeSteps received' s simulation := by
  refine ⟨holds.ntimesteps, ?_⟩
  rw [holds.timesteps, flagsOf, flagsOf]
  simp only [same]

theorem Shaped.congr {received received' : List Key}
    (same : ∀ key, key ∈ received' ↔ key ∈ received)
    {server : MelissaServer} (shaped : Shaped fields nbTimeSteps received server) :
    Shaped fields nbTimeSteps received' server :=
  ⟨shaped.sameFields, shaped.sameSteps,
    fun s simulation here => (shaped.records s simulation here).congr same,
    fun key member => shaped.known key ((same key).mp member)⟩

variable (fields nbTimeSteps)

/-- What the server has done after the events of `past`, none of which is a DROP. -/
structure Tracks (past : List Event) (session : Session) : Prop where
  shaped : Shaped fields nbTimeSteps (receivedKeys fields nbTimeSteps past) session.server
  known : ∀ s, s ∈ session.server.simulations ↔
    s ∈ jobIds past ∨ s ∈ senders fields nbTimeSteps past
  returned : session.returned.map Delivered.message =
    (firsts SimulationData.key (admittedMessages fields nbTimeSteps past)).filter
      fun message => message.dataSize > 0
  finished : ∀ s, session.server.statuses.count (s, .finished) =
    if Completed fields nbTimeSteps past s then 1 else 0

variable {fields nbTimeSteps}

theorem start_tracks (sampleSize : Int) :
    Tracks fields nbTimeSteps [] (startSession fields nbTimeSteps sampleSize) := by
  refine ⟨⟨rfl, rfl, ?_, ?_⟩, ?_, rfl, ?_⟩
  · intro s simulation here
    cases here
  · intro key member
    cases member
  · intro s
    simp [startSession, MelissaServer.start, jobIds, senders, admittedMessages]
  · intro s
    rw [if_neg (fun completed => by simpa [senders, admittedMessages] using completed.1)]
    rfl

variable {past : List Event} {session : Session}

theorem admittedMessages_concat (events : List Event) (event : Event) :
    admittedMessages fields nbTimeSteps (events ++ [event]) =
      admittedMessages fields nbTimeSteps events ++ admittedMessages fields nbTimeSteps [event] :=
  List.filterMap_append

theorem job_tracks (tracks : Tracks fields nbTimeSteps past session) (jobDetails : JobDetails)
    (now : ℚ) :
    Tracks fields nbTimeSteps (past ++ [.job jobDetails now])
      { session with server := session.server.handleJob jobDetails now } := by
  obtain ⟨shaped, known, returned, finished⟩ := tracks
  have none : admittedMessages fields nbTimeSteps (past ++ [.job jobDetails now]) =
      admittedMessages fields nbTimeSteps past := by
    rw [admittedMessages_concat]
    exact List.append_nil _
  have jobs : jobIds (past ++ [.job jobDetails now]) = jobIds past ++ [jobDetails.simulationId] :=
    List.filterMap_append
  constructor
  · rw [receivedKeys, none]
    apply shaped.insert (fun _ _ _ => id) (fun _ => Or.inr)
    have holds : Holds fields nbTimeSteps (receivedKeys fields nbTimeSteps past)
        jobDetails.simulationId (session.server.recordOf jobDetails.simulationId now) := by
      rw [recordOf]
      cases found : session.server.simulations.lookup jobDetails.simulationId with
      | none =>
          rw [Option.getD_none, shaped.sameFields, shaped.sameSteps]
          apply create_holds
          intro key member same
          have present := shaped.known key member
          rw [same] at present
          exact AList.lookup_eq_none.mp found present
      | some simulation => exact shaped.records _ _ found
    exact ⟨holds.ntimesteps, holds.timesteps⟩
  · intro s
    rw [senders, none, jobs, List.mem_append, List.mem_singleton]
    change s ∈ session.server.simulations.insert _ _ ↔ _
    rw [AList.mem_insert, known s, senders]
    constructor
    · rintro (own | job | data)
      · exact Or.inl (Or.inr own)
      · exact Or.inl (Or.inl job)
      · exact Or.inr data
    · rintro ((job | own) | data)
      · exact Or.inr (Or.inl job)
      · exact Or.inl own
      · exact Or.inr (Or.inr data)
  · rw [none]
    exact returned
  · intro s
    simp only [Completed, senders, receivedKeys, none] at finished ⊢
    exact finished s

theorem admittedMessages_data {message : SimulationData}
    (admitted : Admitted fields nbTimeSteps message) (events : List Event) (metadata : Metadata)
    (now : ℚ) :
    admittedMessages fields nbTimeSteps (events ++ [.data message metadata now]) =
      admittedMessages fields nbTimeSteps events ++ [message] := by
  rw [admittedMessages_concat]
  simp [admittedMessages, Event.admitted, admitted]

theorem receivedKeys_data {message : SimulationData}
    (admitted : Admitted fields nbTimeSteps message) (events : List Event) (metadata : Metadata)
    (now : ℚ) :
    receivedKeys fields nbTimeSteps (events ++ [.data message metadata now]) =
      receivedKeys fields nbTimeSteps events ++ [message.key] := by
  rw [receivedKeys, admittedMessages_data admitted, List.map_append, List.map_singleton,
    receivedKeys]

theorem senders_data {message : SimulationData}
    (admitted : Admitted fields nbTimeSteps message) (events : List Event) (metadata : Metadata)
    (now : ℚ) :
    senders fields nbTimeSteps (events ++ [.data message metadata now]) =
      senders fields nbTimeSteps events ++ [message.simulationId] := by
  rw [senders, admittedMessages_data admitted, List.map_append, List.map_singleton, senders]

theorem jobIds_data (events : List Event) (message : SimulationData) (metadata : Metadata)
    (now : ℚ) : jobIds (events ++ [.data message metadata now]) = jobIds events := by
  rw [jobIds, List.filterMap_append]
  exact List.append_nil _

theorem refused_tracks (tracks : Tracks fields nbTimeSteps past session) {message : SimulationData}
    (refused : ¬ Admitted fields nbTimeSteps message) (metadata : Metadata) (now : ℚ) :
    Tracks fields nbTimeSteps (past ++ [.data message metadata now]) session := by
  obtain ⟨shaped, known, returned, finished⟩ := tracks
  have none : admittedMessages fields nbTimeSteps (past ++ [.data message metadata now]) =
      admittedMessages fields nbTimeSteps past := by
    rw [admittedMessages_concat]
    simp [admittedMessages, Event.admitted, refused]
  constructor
  · rwa [receivedKeys, none]
  · intro s
    rw [known s, senders, senders, none, jobIds_data]
  · rwa [none]
  · intro s
    simp only [Completed, senders, receivedKeys, none] at finished ⊢
    exact finished s

theorem repeated_tracks (tracks : Tracks fields nbTimeSteps past session)
    {message : SimulationData} (admitted : Admitted fields nbTimeSteps message)
    (old : message.key ∈ receivedKeys fields nbTimeSteps past) (metadata : Metadata) (now : ℚ) :
    Tracks fields nbTimeSteps (past ++ [.data message metadata now]) session := by
  obtain ⟨shaped, known, returned, finished⟩ := tracks
  have messages := admittedMessages_data admitted past metadata now
  have keys : ∀ key, key ∈ receivedKeys fields nbTimeSteps (past ++ [.data message metadata now]) ↔
      key ∈ receivedKeys fields nbTimeSteps past := by
    intro key
    rw [receivedKeys_data admitted, List.mem_append, List.mem_singleton]
    constructor
    · rintro (member | rfl)
      · exact member
      · exact old
    · exact Or.inl
  have sender : message.simulationId ∈ senders fields nbTimeSteps past := by
    obtain ⟨other, member, same⟩ := List.mem_map.mp old
    exact List.mem_map.mpr ⟨other, member, congrArg Prod.fst same⟩
  have sent : ∀ s, s ∈ senders fields nbTimeSteps (past ++ [.data message metadata now]) ↔
      s ∈ senders fields nbTimeSteps past := by
    intro s
    rw [senders_data admitted, List.mem_append, List.mem_singleton]
    constructor
    · rintro (member | rfl)
      · exact member
      · exact sender
    · exact Or.inl
  constructor
  · exact shaped.congr keys
  · intro s
    rw [known s, jobIds_data, sent s]
  · rw [messages, firsts_concat_old _ old]
    exact returned
  · intro s
    simp only [Completed, AllReceived, sent, keys] at finished ⊢
    exact finished s

theorem Advanced.count_finished {received : List Key} {message : SimulationData}
    {server server' : MelissaServer}
    (advanced : Advanced fields nbTimeSteps received message server server') (s : Int) :
    server'.statuses.count (s, .finished) = server.statuses.count (s, .finished) +
      if s = message.simulationId ∧
        AllReceived fields nbTimeSteps (received ++ [message.key]) message.simulationId
      then 1 else 0 := by
  have announced : (if message.simulationId ∈ server.simulations then []
      else [(message.simulationId, SimulationStatus.running)]).count (s, .finished) = 0 := by
    split <;> simp
  rw [advanced.statuses, List.count_append, List.count_append, announced, Nat.add_zero]
  congr 1
  by_cases own : s = message.simulationId
  · subst own
    simp only [true_and]
    split <;> simp
  · have none : ¬ (s = message.simulationId ∧ AllReceived fields nbTimeSteps
        (received ++ [message.key]) message.simulationId) := fun both => own both.1
    rw [if_neg none]
    split <;> simp [Ne.symm own]

theorem Advanced.count_running {received : List Key} {message : SimulationData}
    {server server' : MelissaServer}
    (advanced : Advanced fields nbTimeSteps received message server server') :
    server'.statuses.count (message.simulationId, .running) =
      server.statuses.count (message.simulationId, .running) +
        if message.simulationId ∈ server.simulations then 0 else 1 := by
  have completed : (if AllReceived fields nbTimeSteps (received ++ [message.key])
      message.simulationId then [(message.simulationId, SimulationStatus.finished)]
      else []).count (message.simulationId, .running) = 0 := by
    split <;> simp
  rw [advanced.statuses, List.count_append, List.count_append, completed, Nat.add_zero]
  congr 1
  split <;> simp

/-- A new message completes its own simulation or none. -/
theorem completed_new {events : List Event} {message : SimulationData}
    (admitted : Admitted fields nbTimeSteps message)
    (new : message.key ∉ receivedKeys fields nbTimeSteps events) (metadata : Metadata) (now : ℚ)
    (s : Int) :
    ((if Completed fields nbTimeSteps events s then 1 else 0) +
      if s = message.simulationId ∧
        AllReceived fields nbTimeSteps (receivedKeys fields nbTimeSteps events ++ [message.key])
          message.simulationId then 1 else 0) =
      if Completed fields nbTimeSteps (events ++ [.data message metadata now]) s
        then 1 else 0 := by
  have keys := receivedKeys_data admitted events metadata now
  have sent := senders_data admitted events metadata now
  have missing : ¬ AllReceived fields nbTimeSteps (receivedKeys fields nbTimeSteps events)
      message.simulationId :=
    fun all => new (all message.fieldName admitted.2 message.timestep.toNat admitted.inside)
  by_cases own : s = message.simulationId
  · subst own
    have sender : message.simulationId ∈
        senders fields nbTimeSteps events ++ [message.simulationId] := by simp
    rw [if_neg fun completed => missing completed.2, Nat.zero_add]
    apply if_congr _ rfl rfl
    simp only [Completed, sent, keys, sender, true_and]
  · have others : ∀ field timestep, (s, field, timestep) ≠ message.key := by
      intro field timestep same
      exact own (congrArg Prod.fst same)
    have none : ¬ (s = message.simulationId ∧ AllReceived fields nbTimeSteps
        (receivedKeys fields nbTimeSteps events ++ [message.key]) message.simulationId) :=
      fun both => own both.1
    rw [if_neg none, Nat.add_zero]
    apply if_congr _ rfl rfl
    simp only [Completed, sent, keys, AllReceived, List.mem_append, List.mem_singleton, own,
      others, or_false]

theorem new_tracks (tracks : Tracks fields nbTimeSteps past session) {message : SimulationData}
    (admitted : Admitted fields nbTimeSteps message)
    (new : message.key ∉ receivedKeys fields nbTimeSteps past) {metadata : Metadata} {now : ℚ}
    {server' : MelissaServer} {parameters : Option (List (BitVec 64))}
    (advanced : Advanced fields nbTimeSteps (receivedKeys fields nbTimeSteps past) message
      session.server server') :
    Tracks fields nbTimeSteps (past ++ [.data message metadata now])
      { server := server'
        returned := session.returned ++ (if message.dataSize > 0 then
          some { message := message, parameters := parameters } else none : Option _).toList } := by
  obtain ⟨shaped, known, returned, finished⟩ := tracks
  constructor
  · rw [receivedKeys_data admitted]
    exact advanced.shaped
  · intro s
    rw [jobIds_data, senders_data admitted, List.mem_append, List.mem_singleton]
    refine (advanced.keys s).trans ?_
    rw [known s]
    tauto
  · rw [admittedMessages_data admitted, firsts_concat_new _ new, List.filter_append,
      List.map_append, returned]
    congr 1
    by_cases full : message.dataSize > 0
    · simp [full]
    · simp [full]
  · intro s
    rw [advanced.count_finished, finished s]
    exact completed_new admitted new metadata now s

theorem step_tracks (tracks : Tracks fields nbTimeSteps past session) (event : Event)
    (kept : ¬ event.IsDrop) :
    ∃ session', step session event = some session' ∧
      Tracks fields nbTimeSteps (past ++ [event]) session' := by
  cases event with
  | job jobDetails now => exact ⟨_, rfl, job_tracks tracks jobDetails now⟩
  | drop s => exact absurd trivial kept
  | data message metadata now =>
      rw [step]
      by_cases admitted : Admitted fields nbTimeSteps message
      · by_cases old : message.key ∈ receivedKeys fields nbTimeSteps past
        · rw [handleSimulationData_repeated tracks.shaped admitted old]
          refine ⟨_, rfl, ?_⟩
          simpa using repeated_tracks tracks admitted old metadata now
        · obtain ⟨server', parameters, handled, advanced⟩ :=
            handleSimulationData_new tracks.shaped admitted old metadata now
          rw [handled]
          exact ⟨_, rfl, new_tracks tracks admitted old advanced⟩
      · rw [handleSimulationData_refused tracks.shaped admitted]
        refine ⟨_, rfl, ?_⟩
        simpa using refused_tracks tracks admitted metadata now

/-- The server gets through every run without DROP. -/
theorem run_tracks (sampleSize : Int) {events : List Event}
    (kept : ∀ event ∈ events, ¬ event.IsDrop) :
    ∃ session, run step (startSession fields nbTimeSteps sampleSize) events = some session ∧
      Tracks fields nbTimeSteps events session := by
  induction events using List.reverseRecOn with
  | nil => exact ⟨_, rfl, start_tracks sampleSize⟩
  | append_singleton events event ih =>
      rw [List.forall_mem_append, List.forall_mem_singleton] at kept
      obtain ⟨session, reached, tracks⟩ := ih kept.1
      obtain ⟨session', taken, tracks'⟩ := step_tracks tracks event kept.2
      exact ⟨session', run_concat_eq_some.mpr ⟨session, reached, taken⟩, tracks'⟩

end Tracks

section Once

variable (fields : List (List Char)) (nbTimeSteps : Nat)

/-- Over a run the handler returns the first message of each simulation, known field and valid
time step if it carries data, and nothing else; FINISHED is sent for a simulation at the event
that completes it, and at no other. -/
structure ConsumesOnce (sampleSize : Int) (events : List Event) (session : Session) : Prop where
  returned : session.returned.map Delivered.message =
    (firsts SimulationData.key (admittedMessages fields nbTimeSteps events)).filter
      fun message => message.dataSize > 0
  finished : ∀ s, session.server.statuses.count (s, .finished) =
    if Completed fields nbTimeSteps events s then 1 else 0
  moment : ∀ front event back, events = front ++ event :: back → ∃ before after,
    run step (startSession fields nbTimeSteps sampleSize) front = some before ∧
    step before event = some after ∧
    ∀ s, after.server.statuses.count (s, .finished) =
      before.server.statuses.count (s, .finished) +
        if ¬ Completed fields nbTimeSteps front s ∧
          Completed fields nbTimeSteps (front ++ [event]) s then 1 else 0

variable {fields nbTimeSteps}

/-- A completed simulation stays completed. -/
theorem Completed.append {events : List Event} {s : Int}
    (completed : Completed fields nbTimeSteps events s) (later : List Event) :
    Completed fields nbTimeSteps (events ++ later) s := by
  have messages : admittedMessages fields nbTimeSteps (events ++ later) =
      admittedMessages fields nbTimeSteps events ++ admittedMessages fields nbTimeSteps later :=
    List.filterMap_append
  constructor
  · rw [senders, messages, List.map_append]
    exact List.mem_append_left _ completed.1
  · intro field known timestep inside
    rw [receivedKeys, messages, List.map_append]
    exact List.mem_append_left _ (completed.2 field known timestep inside)

theorem consumesOnce (sampleSize : Int) {events : List Event}
    (kept : ∀ event ∈ events, ¬ event.IsDrop) :
    ∃ session, run step (startSession fields nbTimeSteps sampleSize) events = some session ∧
      ConsumesOnce fields nbTimeSteps sampleSize events session := by
  obtain ⟨session, reached, tracks⟩ := @run_tracks fields nbTimeSteps sampleSize _ kept
  refine ⟨session, reached, tracks.returned, tracks.finished, ?_⟩
  rintro front event back rfl
  rw [List.forall_mem_append, List.forall_mem_cons] at kept
  obtain ⟨before, reached', tracks'⟩ := @run_tracks fields nbTimeSteps sampleSize _ kept.1
  obtain ⟨after, taken, tracks''⟩ := step_tracks tracks' event kept.2.1
  refine ⟨before, after, reached', taken, ?_⟩
  intro s
  rw [tracks''.finished, tracks'.finished]
  by_cases completed : Completed fields nbTimeSteps front s
  · rw [if_pos completed, if_pos (completed.append [event]), if_neg fun both => both.1 completed]
  · rw [if_neg completed, Nat.zero_add]
    exact if_congr (by simp [completed]) rfl rfl

/-- A data message with one value for the field "heat". -/
def heatMessage (simulationId timestep : Int) : SimulationData :=
  { timestep := timestep, simulationId := simulationId, clientRank := 0, dataSize := 1
    fieldName := ['h', 'e', 'a', 't'], data := [0] }

def oneParameter : Metadata := { jobId := ['1', '2'], parameters := [0] }

/-- Two time steps of one simulation, the first of them twice. -/
def heatRun : List Event :=
  [.data (heatMessage 0 1) oneParameter 0, .data (heatMessage 0 1) oneParameter 1,
    .data (heatMessage 0 0) oneParameter 2]

theorem consumesOnce_heatRun : (∀ event ∈ heatRun, ¬ event.IsDrop) ∧
    ∃ session, run step (startSession [['h', 'e', 'a', 't']] 2 1) heatRun = some session ∧
      ConsumesOnce [['h', 'e', 'a', 't']] 2 1 heatRun session := by
  have kept : ∀ event ∈ heatRun, ¬ event.IsDrop := by simp [heatRun, Event.IsDrop]
  exact ⟨kept, consumesOnce 1 kept⟩

end Once

section Announce

variable (fields : List (List Char)) (nbTimeSteps : Nat) (sampleSize : Int) (events : List Event)

/-- The first valid data message of every simulation makes the server send one RUNNING for it. -/
def AnnouncesAll : Prop :=
  ∀ front message metadata now back, events = front ++ .data message metadata now :: back →
    Admitted fields nbTimeSteps message →
    message.simulationId ∉ senders fields nbTimeSteps front →
    ∀ before after, run step (startSession fields nbTimeSteps sampleSize) front = some before →
      step before (.data message metadata now) = some after →
      after.server.statuses.count (message.simulationId, .running) =
        before.server.statuses.count (message.simulationId, .running) + 1

/-- No JOB of a simulation is handled before its first valid data message. -/
def DataBeforeJobs : Prop :=
  ∀ front message metadata now back, events = front ++ .data message metadata now :: back →
    Admitted fields nbTimeSteps message →
    message.simulationId ∉ senders fields nbTimeSteps front →
    message.simulationId ∉ jobIds front

variable {fields nbTimeSteps sampleSize events}

theorem announcesAll_iff (kept : ∀ event ∈ events, ¬ event.IsDrop) :
    AnnouncesAll fields nbTimeSteps sampleSize events ↔
      DataBeforeJobs fields nbTimeSteps events := by
  refine forall₅_congr fun front message metadata now back =>
    forall₃_congr fun cut admitted first => ?_
  subst cut
  rw [List.forall_mem_append] at kept
  obtain ⟨before, reached, tracks⟩ := @run_tracks fields nbTimeSteps sampleSize _ kept.1
  have new : message.key ∉ receivedKeys fields nbTimeSteps front := by
    intro old
    obtain ⟨other, member, same⟩ := List.mem_map.mp old
    exact first (List.mem_map.mpr ⟨other, member, congrArg Prod.fst same⟩)
  obtain ⟨server', parameters, handled, advanced⟩ :=
    handleSimulationData_new tracks.shaped admitted new metadata now
  have known : message.simulationId ∈ before.server.simulations ↔
      message.simulationId ∈ jobIds front := by simp [tracks.known, first]
  have count := advanced.count_running
  constructor
  · intro announces job
    have one := announces before _ reached (by rw [step, handled]; rfl)
    rw [if_pos (known.mpr job)] at count
    rw [count] at one
    omega
  · intro fresh before' after reached' taken
    have same : before' = before := by
      rw [reached] at reached'
      exact (Option.some.inj reached').symm
    subst same
    rw [step, handled] at taken
    rw [← Option.some.inj taken]
    rw [if_neg fun present => fresh (known.mp present)] at count
    exact count

def jobZero : JobDetails := { simulationId := 0, jobId := ['1', '2'], parameters := [0] }

/-- The data of simulation 0 is handled before its JOB. -/
def dataThenJob : List Event := [.data (heatMessage 0 0) oneParameter 0, .job jobZero 1]

theorem announcesAll_iff_dataThenJob : (∀ event ∈ dataThenJob, ¬ event.IsDrop) ∧
    AnnouncesAll [['h', 'e', 'a', 't']] 2 1 dataThenJob := by
  have kept : ∀ event ∈ dataThenJob, ¬ event.IsDrop := by simp [dataThenJob, Event.IsDrop]
  refine ⟨kept, (announcesAll_iff kept).mpr ?_⟩
  intro front message metadata now back cut _ _
  rcases front with _ | ⟨first, _ | ⟨second, rest⟩⟩
  · simp [jobIds]
  · cases cut
  · simp [dataThenJob] at cut

/-- The JOB that the launcher broadcasts when it submits simulation 0 comes first. -/
theorem not_announcesAll_jobFirst :
    ¬ AnnouncesAll [['h', 'e', 'a', 't']] 2 1
      [.job jobZero 0, .data (heatMessage 0 0) oneParameter 1] := by
  intro announces
  have one := announces [.job jobZero 0] (heatMessage 0 0) oneParameter 1 [] rfl (by decide)
    (by decide) _ _ rfl rfl
  revert one
  decide

end Announce

end Melissa4py

end Melissa
