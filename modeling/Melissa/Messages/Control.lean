import Melissa.Base.Arrays
import Melissa.Messages.Layout
import Melissa.Server.Spec

/-! The messages of the launcher on the server: the bytes `message_job` and `message_drop` build,
and what `process_launcher_message` makes of them. -/

namespace Melissa

open Arrays

section Read

/-- A `char` array as a text, one character for each byte. -/
def charArray (bytes : Bytes) : String :=
  String.ofList (bytes.map fun byte => Char.ofNat byte.toNat)

/-- The values of a message; none if some of them are not part of the message. -/
def readDoubles (msg : Bytes) (position count : Nat) : Option (List (BitVec 64)) :=
  (List.range count).mapM fun i => readDouble msg (position + 8 * i)

/-- What `process_launcher_message` reads. `vector_get` finds no simulation with a negative
number. For a DROP `read_message_drop` is given the address of the array `job_id` where it
expects the address of a pointer: its `strcpy` goes through the first bytes of an array nobody
has initialised. -/
def launcherMessage (nbParameters : Nat) (msg : Bytes) :
    Option (LauncherMessage (BitVec 64)) := do
  let messageType ← readInt msg 0
  if messageType = MessageType.job then do
    let simuId ← readInt msg 4
    let simuId ← if 0 ≤ simuId.toInt then some simuId.toNat else none
    let jobId ← readString msg 8
    let jobIdSize : Nat := 255
    if jobIdSize ≤ jobId.length then none
    else do
      let parameters ← readDoubles msg (8 + (jobId.length + 1)) nbParameters
      some (.job { simuId := simuId, jobId := charArray jobId, parameters := parameters })
  else if messageType = MessageType.drop then none
  else if messageType = MessageType.hello then some .hello
  else if messageType = MessageType.alive then some .alive
  else if messageType = MessageType.options then some .options
  else some (.unknown messageType.toNat)

/-- `process_launcher_message` on the bytes of a message. -/
def processLauncherBytes (server : Server (BitVec 64)) (msg : Bytes) :
    Option (Server (BitVec 64)) :=
  (launcherMessage server.options.nbParameters msg).bind (processLauncherMessage server)

end Read

section Control

/-- The messages `send_job_init` and `send_drop` send. -/
inductive Control where
  | job (simuId : BitVec 32) (jobId : CString) (paramSet : List (BitVec 64))
  | drop (simuId : BitVec 32) (jobId : CString)
  deriving DecidableEq

namespace Control

def message : Control → Bytes
  | .job simuId jobId paramSet => messageJob simuId jobId paramSet
  | .drop simuId jobId => messageDrop simuId jobId

def simuId : Control → BitVec 32
  | .job simuId _ _ => simuId
  | .drop simuId _ => simuId

def jobId : Control → CString
  | .job _ jobId _ => jobId
  | .drop _ jobId => jobId

/-- What the message says about its simulation. -/
def Carried (nbParameters : Nat) (simu : Simulation (BitVec 64)) : Control → Prop
  | .job _ jobId paramSet => simu.jobId = charArray jobId.bytes ∧ simu.jobStatus = 0 ∧
      simu.parameters = some (paramSet.take nbParameters)
  | .drop _ jobId => simu.jobId = charArray jobId.bytes ∧ 2 ≤ simu.status

/-- The fields of a simulation the message says nothing about. -/
def Untouched (simu simu' : Simulation (BitVec 64)) : Control → Prop
  | .job _ _ _ => simu'.status = simu.status ∧ simu'.timeout = simu.timeout ∧
      simu'.lastMessage = simu.lastMessage
  | .drop _ _ => simu'.timeout = simu.timeout ∧ simu'.lastMessage = simu.lastMessage ∧
      simu'.parameters = simu.parameters

/-- The message has updated its simulation and nothing else. -/
structure Updated (server server' : Server (BitVec 64)) (m : Control) : Prop where
  known : m.simuId.toNat < server'.simulations.length
  carried : ∀ simu, server'.simulations[m.simuId.toNat]? = some simu →
    m.Carried server.options.nbParameters simu
  untouched : ∀ simu simu', server.simulations[m.simuId.toNat]? = some simu →
    server'.simulations[m.simuId.toNat]? = some simu' → m.Untouched simu simu'
  others : ∀ i < server.simulations.length, i ≠ m.simuId.toNat →
    server'.simulations[i]? = server.simulations[i]?

/-- The messages that are taken: a JOB for a simulation that exists, with enough values. -/
def Taken (server : Server (BitVec 64)) : Control → Prop
  | .job simuId _ paramSet => simuId.toNat < server.simulations.length ∧
      server.options.nbParameters ≤ paramSet.length
  | .drop _ _ => False

end Control

end Control

section Values

theorem readDoubles_succ (msg : Bytes) (position count : Nat) :
    readDoubles msg position (count + 1) = (readDouble msg position).bind fun value =>
      (readDoubles msg (position + 8) count).map (value :: ·) := by
  have next (i : Nat) : position + 8 * i.succ = position + 8 + 8 * i := by omega
  rw [readDoubles, List.range_succ_eq_map, List.mapM_cons, List.mapM_map, readDoubles]
  simp only [Function.comp_def, next, Nat.mul_zero, Nat.add_zero, Option.bind_eq_bind]
  congr 1
  funext value
  cases (List.range count).mapM fun i => readDouble msg (position + 8 + 8 * i) with
  | none => rfl
  | some values => rfl

theorem readDoubles_in {front : Bytes} {paramSet : List (BitVec 64)} {position count : Nat}
    (starts : front.length = position) (enough : count ≤ paramSet.length) (back : Bytes) :
    readDoubles (front ++ (paramSet.flatMap doubleBytes ++ back)) position count =
      some (paramSet.take count) := by
  induction count generalizing front paramSet position with
  | zero => rfl
  | succ count ih =>
      cases paramSet with
      | nil => simp at enough
      | cons value paramSet =>
          have next : (front ++ doubleBytes value).length = position + 8 := by
            rw [List.length_append, doubleBytes_length, starts]
          have rest := ih next (Nat.le_of_succ_le_succ enough)
          rw [List.append_assoc] at rest
          rw [List.flatMap_cons, List.append_assoc, readDoubles_succ, readDouble_at _ _ starts,
            Option.bind_some, rest]
          rfl

theorem readDoubles_at {front : Bytes} {paramSet : List (BitVec 64)} {position count : Nat}
    (starts : front.length = position) (enough : count ≤ paramSet.length) :
    readDoubles (front ++ paramSet.flatMap doubleBytes) position count =
      some (paramSet.take count) := by
  have whole := readDoubles_in starts enough []
  rwa [List.append_nil] at whole

theorem readDoubles_short {front : Bytes} {paramSet : List (BitVec 64)} {position count : Nat}
    (starts : front.length = position) (short : paramSet.length < count) :
    readDoubles (front ++ paramSet.flatMap doubleBytes) position count = none := by
  induction paramSet generalizing front position count with
  | nil =>
      cases count with
      | zero => cases short
      | succ count =>
          have outside : readDouble (front ++ [].flatMap doubleBytes) position = none := by
            rw [readDouble, readBytes, if_neg]
            · rfl
            · simp [starts]
          rw [readDoubles_succ, outside]
          rfl
  | cons value paramSet ih =>
      cases count with
      | zero => cases short
      | succ count =>
          have next : (front ++ doubleBytes value).length = position + 8 := by
            rw [List.length_append, doubleBytes_length, starts]
          have rest := ih next (Nat.lt_of_succ_lt_succ short)
          rw [List.append_assoc] at rest
          rw [List.flatMap_cons, readDoubles_succ, readDouble_at _ _ starts, Option.bind_some,
            rest]
          rfl

theorem flatMap_doubleBytes_length (paramSet : List (BitVec 64)) :
    (paramSet.flatMap doubleBytes).length = paramSet.length * 8 :=
  flatMap_length_eq fun value _ => doubleBytes_length value

end Values

section Decode

theorem messageJob_eq (simuId : BitVec 32) (jobId : CString) (paramSet : List (BitVec 64)) :
    messageJob simuId jobId paramSet = intBytes MessageType.job ++ (intBytes simuId ++
      (stringBytes jobId ++ paramSet.flatMap doubleBytes)) := by
  apply zmqMsg_eq
  simp only [List.length_append, intBytes_length, stringBytes_length, flatMap_doubleBytes_length]
  omega

theorem messageDrop_eq (simuId : BitVec 32) (jobId : CString) :
    messageDrop simuId jobId =
      intBytes MessageType.drop ++ (intBytes simuId ++ stringBytes jobId) := by
  apply zmqMsg_eq
  simp only [List.length_append, intBytes_length, stringBytes_length]
  omega

/-- A JOB is read as it was built, if it holds the parameters of the study. -/
theorem launcherMessage_job (nbParameters : Nat) {simuId : BitVec 32} {jobId : CString}
    (paramSet : List (BitVec 64)) (natural : 0 ≤ simuId.toInt) (short : jobId.bytes.length < 255) :
    launcherMessage nbParameters (messageJob simuId jobId paramSet) =
      if nbParameters ≤ paramSet.length then
        some (.job { simuId := simuId.toNat, jobId := charArray jobId.bytes
                     parameters := paramSet.take nbParameters })
      else none := by
  have messageType := @readInt_at [] MessageType.job
    (intBytes simuId ++ (stringBytes jobId ++ paramSet.flatMap doubleBytes)) 0 rfl
  have number := readInt_at simuId (stringBytes jobId ++ paramSet.flatMap doubleBytes)
    (intBytes_length MessageType.job)
  have name := @readString_at (intBytes MessageType.job ++ intBytes simuId) jobId
    (paramSet.flatMap doubleBytes) 8 (by simp only [List.length_append, intBytes_length])
  have starts : (intBytes MessageType.job ++ intBytes simuId ++ stringBytes jobId).length =
      8 + (jobId.bytes.length + 1) := by
    simp only [List.length_append, intBytes_length, stringBytes_length]
  rw [List.nil_append] at messageType
  rw [List.append_assoc] at name
  rw [messageJob_eq, launcherMessage]
  simp only [messageType, number, name, natural, Option.bind_eq_bind, Option.bind_some, if_true]
  rw [if_neg (Nat.not_le_of_lt short)]
  split
  · rename_i enough
    have values := readDoubles_at starts enough
    rw [List.append_assoc, List.append_assoc] at values
    rw [values]
    rfl
  · rename_i few
    have values := readDoubles_short starts (Nat.lt_of_not_le few)
    rw [List.append_assoc, List.append_assoc] at values
    rw [values]
    rfl

/-- A DROP is never read. -/
theorem launcherMessage_drop (nbParameters : Nat) (simuId : BitVec 32) (jobId : CString) :
    launcherMessage nbParameters (messageDrop simuId jobId) = none := by
  have messageType := @readInt_at [] MessageType.drop (intBytes simuId ++ stringBytes jobId) 0 rfl
  rw [List.nil_append] at messageType
  rw [messageDrop_eq, launcherMessage]
  simp only [messageType, Option.bind_eq_bind, Option.bind_some]
  rfl

end Decode

section Iff

variable {server : Server (BitVec 64)}

theorem processLauncherBytes_job {simuId : BitVec 32} {jobId : CString}
    {paramSet : List (BitVec 64)} (natural : 0 ≤ simuId.toInt) (short : jobId.bytes.length < 255)
    (inside : simuId.toNat < server.simulations.length)
    (enough : server.options.nbParameters ≤ paramSet.length) {simu : Simulation (BitVec 64)}
    (present : server.simulations[simuId.toNat]? = some simu) :
    processLauncherBytes server (messageJob simuId jobId paramSet) =
      some { server with
        simulations := server.simulations.set simuId.toNat
          { simu with
            jobId := charArray jobId.bytes, jobStatus := 0
            parameters := some (paramSet.take server.options.nbParameters) } } := by
  have values : (paramSet.take server.options.nbParameters).length =
      server.options.nbParameters := by
    rw [List.length_take, Nat.min_eq_left enough]
  rw [processLauncherBytes, launcherMessage_job _ _ natural short, if_pos enough,
    Option.bind_some, processLauncherMessage]
  simp only [growVector_eq_self inside, present, assignJob, values, Nat.lt_irrefl, if_false,
    Option.bind_eq_bind, Option.bind_some]
  rw [List.take_take, Nat.min_self]

/-- A message updates its simulation, and nothing else, exactly when it is a JOB for a simulation
that exists and holds the parameters of the study. -/
theorem controlMessage_iff (m : Control) (natural : 0 ≤ m.simuId.toInt)
    (short : m.jobId.bytes.length < 255) :
    (∃ server', processLauncherBytes server m.message = some server' ∧
      Control.Updated server server' m) ↔ m.Taken server := by
  cases m with
  | drop simuId jobId =>
      apply iff_of_false
      · rintro ⟨server', taken, _⟩
        rw [Control.message, processLauncherBytes, launcherMessage_drop] at taken
        cases taken
      · exact id
  | job simuId jobId paramSet =>
      change 0 ≤ simuId.toInt at natural
      change jobId.bytes.length < 255 at short
      constructor
      · rintro ⟨server', taken, _⟩
        rw [Control.message, processLauncherBytes, launcherMessage_job _ _ natural short] at taken
        split at taken
        · rename_i enough
          exact ⟨(processLauncherMessage_job taken).1, enough⟩
        · cases taken
      · rintro ⟨inside, enough⟩
        have present := List.getElem?_eq_getElem inside
        refine ⟨_, processLauncherBytes_job natural short inside enough present, ?_⟩
        constructor
        · change simuId.toNat < (server.simulations.set simuId.toNat _).length
          rw [List.length_set]
          exact inside
        · intro simu here
          rw [Control.simuId, List.getElem?_set_self inside] at here
          cases here
          exact ⟨rfl, rfl, rfl⟩
        · intro simu simu' before after
          rw [Control.simuId, present] at before
          rw [Control.simuId, List.getElem?_set_self inside] at after
          cases before
          cases after
          exact ⟨rfl, rfl, rfl⟩
        · intro i _ other
          exact List.getElem?_set_ne (Ne.symm other)

end Iff

section Examples

/-- A study of two simulations with one parameter. -/
def jobServer : Server (BitVec 64) :=
  freshServer { twoByTwo with threshold := [], quantileOrder := [] } ⟨0, 1, 1⟩ ["heat"]

/-- The job id "12". -/
def jobTwelve : CString := ⟨[49, 50], by decide⟩

theorem controlMessage_iff_second : ∃ server',
    processLauncherBytes jobServer (Control.job 1 jobTwelve [0x3FF0000000000000]).message =
      some server' ∧
    Control.Updated jobServer server' (.job 1 jobTwelve [0x3FF0000000000000]) :=
  (controlMessage_iff (.job 1 jobTwelve [0x3FF0000000000000]) (by decide) (by decide)).mpr
    (by decide : (1 : BitVec 32).toNat < jobServer.simulations.length ∧ _)

/-- The first simulation behind the vector: the loop adds none for it. -/
theorem not_controlMessage_third : ¬ ∃ server',
    processLauncherBytes jobServer (Control.job 2 jobTwelve [0x3FF0000000000000]).message =
      some server' ∧
    Control.Updated jobServer server' (.job 2 jobTwelve [0x3FF0000000000000]) := by
  rintro ⟨server', taken, _⟩
  rw [Control.message, processLauncherBytes,
    launcherMessage_job _ _ (by decide) (by decide), if_pos (by decide)] at taken
  exact absurd (processLauncherMessage_job taken).1 (by decide)

end Examples

end Melissa
