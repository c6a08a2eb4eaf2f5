import Melissa.Launcher.State
import Melissa.Restart.Life

/-! The launcher and rank 0 of the server with the messages between them. A process loses no
message of the other while it lives, and the messages of one life of the server arrive before
those of the next. -/

namespace Melissa

open Runs

section Messages

/-- What the server sends to the messenger thread. -/
inductive Packet where
  | server
  | notice (notice : Notice)
  | stop
  deriving DecidableEq, Repr

/-- `wait_message` and `split`. The number of a TIMEOUT message lies behind its end: `garbled` is
what is read there. -/
def Packet.read (garbled : Int) : Packet → ServerMessage
  | .server => .server
  | .notice (.simuStatus simuId status) => .groupState simuId status
  | .notice (.timeout _) => .timeout garbled
  | .notice _ => .other
  | .stop => .stop

/-- What goes to the messenger; `simu_info` goes to the responder thread. -/
def pushed (notices : List Notice) : List Packet :=
  notices.filterMap fun
    | .simuInfo _ => none
    | notice => some (.notice notice)

variable {D : Type}

/-- The simulations of a group that the launcher sends JOB messages for, with the parameters. -/
def assignments (group : Group D) : List (Nat × List D) :=
  if group.jobType = 3 then group.simuId.zip group.paramSet
  else group.paramSet.head?.toList.map fun params => (group.groupId, params)

/-- The calls of `send_job_init` at the end of `launch` and of `restart`. -/
def jobMessages (jobId : String) (group : Group D) : List (LauncherMessage D) :=
  (assignments group).map fun (simuId, params) => .job ⟨simuId, jobId, params⟩

/-- The answer of `Responder.run` to `simu_info`. It sends as many values as the first parameter
set of the group has. -/
def respond (batchSize : Int) (groups : List (Group D)) (simuId : Nat) (jobId : String) :
    Option (Job D) := do
  let g ← pyIndex groups.length ((simuId : Int) / batchSize)
  let group ← groups[g]?
  let first ← group.paramSet.head?
  if group.jobType = 4 then some ⟨group.groupId, jobId, first⟩
  else if group.jobType = 3 then
    let simu := ((simuId : Int) % batchSize).toNat
    let params ← group.paramSet[simu]?
    let id ← group.simuId[simu]?
    if first.length ≤ params.length then some ⟨id, jobId, params.take first.length⟩ else none
  else none

/-- A restart of group `i` that has come to its end: the drops or the JOB messages. Without a
function `restart_group` the group is launched, which sends the JOB messages too. -/
def sentByRestart (restartGroup : Bool) (jobId : String) (launcher' : Launcher D) (i : Nat) :
    List (LauncherMessage D) :=
  match launcher'.groups[i]? with
  | none => []
  | some group =>
      if launcher'.phase = .ended ∨ group.status ≠ waiting then []
      else if restartGroup then jobMessages jobId group
      else jobMessages jobId group ++ jobMessages jobId group

/-- What a step of a thread of the launcher sends to the server. -/
def sentByThread (restartGroup : Bool) (jobId : String) (launcher launcher' : Launcher D)
    (event : LauncherEvent) : List (LauncherMessage D) :=
  let launched := match event, launcher.phase with
    | .main _ _, .submitted => (launcher.groups[launcher.launched]?.map (jobMessages jobId)).getD []
    | _, _ => []
  launched ++ (launcher'.drops.drop launcher.drops.length).map (.drop · jobId) ++
    (launcher'.restarts.drop launcher.restarts.length).flatMap
      (sentByRestart restartGroup jobId launcher')

end Messages

section System

variable {D B : Type}

/-- What is fixed for a study. `restartGroup` says whether there is a function `restart_group`. -/
structure Setting (D B : Type) where
  codec : Codec D B
  tempSize : Nat
  study : Study D
  config : StudyConfig
  restartGroup : Bool

/-- `stopped` is set when the server has left its main loop for good. -/
structure System (D B : Type) where
  launcher : Launcher D
  life : Life D B
  stopped : Bool
  toLauncher : List Packet
  toServer : List (LauncherMessage D)

def startSystem (study : Study D) (groups : List (Group D)) : System D B :=
  { launcher := startLauncher groups, life := firstLife study, stopped := false
    toLauncher := [], toServer := [] }

/-- A pass of the main loop of the server on one kind of work, the delivery of a message to the
messenger, a HELLO of it, and a step of another thread of the launcher. The death of the server
and its next start are one step, which may come at any time: the messages to the dead server are
lost, and of those it has sent the first `kept` arrive. -/
inductive SystemEvent (D : Type) where
  | data (now : ℚ) (m : SimuData D) (jobId : String)
  | receive
  | timeouts (now : ℚ)
  | checkpoint (now : ℚ)
  | finalize
  | restart (others : List (List Nat)) (kept : Nat)
  | deliver (garbled : Int)
  | hello
  | thread (event : LauncherEvent) (jobId : String)

variable [Zero D] [Add D] [Sub D] [Mul D] [Div D] [NatCast D] [IntCast D]
  [Pow D ℕ] [LT D] [DecidableLT D] [LE D] [DecidableLE D] [Libm D]

/-- A pass of the server. What it adds to its messages is pushed. -/
def serverPass (setting : Setting D B) (system : System D B) (event : LifeEvent D) :
    Option (System D B) :=
  if system.stopped then none
  else (lifeStep setting.codec setting.tempSize setting.study system.life event).map fun life =>
    { system with
      life := life
      toLauncher := system.toLauncher ++
        pushed (life.server.outbox.drop system.life.server.outbox.length) }

/-- No step for data of a simulation that the responder does not find: it dies, and the server
waits for its answer. Nor is there one for a DROP that the server reads: it dies of it, and until it
is started again the message counts as on its way. The server never finds its launcher silent. -/
def systemStep (setting : Setting D B) (system : System D B) :
    SystemEvent D → Option (System D B)
  | .data now m jobId =>
      (respond setting.config.batchSize system.launcher.groups m.simuId jobId).bind fun reply =>
        serverPass setting system (.pass (.data now m reply))
  | .receive =>
      match system.toServer with
      | [] => none
      | msg :: rest =>
          serverPass setting { system with toServer := rest } (.pass (.launcher msg))
  | .timeouts now => serverPass setting system (.pass (.timeouts now))
  | .checkpoint now => serverPass setting system (.checkpoint now)
  | .finalize =>
      if system.stopped = false ∧ stopTest system.life.server = true then
        some { system with
          life := { system.life with
            disk := Files.applyOps system.life.disk
              (checkpointOps setting.codec system.life.server) }
          stopped := true, toLauncher := system.toLauncher ++ [.stop] }
      else none
  | .restart others kept =>
      (lifeStep setting.codec setting.tempSize setting.study system.life (.restart others)).map
        fun life =>
          { system with
            life := life, stopped := false, toServer := []
            toLauncher :=
              system.toLauncher.take kept ++ (.server :: pushed life.server.outbox) }
  | .deliver garbled =>
      match system.toLauncher with
      | [] => none
      | packet :: rest =>
          (launcherStep setting.config system.launcher (.message (packet.read garbled))).map
            fun launcher => { system with launcher := launcher, toLauncher := rest }
  | .hello =>
      if system.launcher.server.status = running then
        some { system with toServer := system.toServer ++ [.hello] }
      else none
  | .thread (.message _) _ => none
  | .thread event jobId =>
      (launcherStep setting.config system.launcher event).map fun launcher =>
        { system with
          launcher := launcher
          toServer := system.toServer ++
            sentByThread setting.restartGroup jobId system.launcher launcher event }

/-- What a step of a thread other than the messenger is. -/
theorem thread_step {setting : Setting D B} {system system' : System D B}
    {event : LauncherEvent} {jobId : String}
    (taken : systemStep setting system (.thread event jobId) = some system') :
    ∃ launcher, (∀ msg, event ≠ .message msg) ∧
      launcherStep setting.config system.launcher event = some launcher ∧
      system' = { system with
        launcher := launcher
        toServer := system.toServer ++
          sentByThread setting.restartGroup jobId system.launcher launcher event } := by
  have own (msg : ServerMessage) : event ≠ .message msg := by
    rintro rfl
    cases taken
  have stepped : (launcherStep setting.config system.launcher event).map (fun launcher =>
      ({ system with
        launcher := launcher
        toServer := system.toServer ++
          sentByThread setting.restartGroup jobId system.launcher launcher event } :
        System D B)) = some system' := by
    cases event with
    | message msg => exact absurd rfl (own msg)
    | stopNext => exact taken
    | serverTimeout => exact taken
    | checkServerJob jobStatus => exact taken
    | checkGroupJob i jobStatus => exact taken
    | launch outcome => exact taken
    | main outcome late => exact taken
  obtain ⟨launcher, moved, rfl⟩ := Option.map_eq_some_iff.mp stepped
  exact ⟨launcher, own, moved, rfl⟩

end System

end Melissa
