import Melissa.Launcher.Groups

/-! The state that the threads of the launcher share, and what each of them does between two
points where another one can run: the messages `Messenger.run` handles, the job states
`StateChecker.run` writes, and the passes of `Study.fault_tolerance`. -/

namespace Melissa

section State

/-- `Server` as the launcher sees it. -/
structure ServerJob where
  status : Int
  jobStatus : Int
  wantStop : Bool
  deriving DecidableEq, Repr

/-- What the messenger thread does: it waits for a message, is in the loop of `stop` over the
groups, or has died of an exception. The thread that replaces it has no groups. -/
inductive MessengerState where
  | idle
  | stopping (next : Nat)
  | crashed
  deriving DecidableEq, Repr

/-- Where the main thread stands: in `Study.run` between two passes, before the second write of
`Group.launch`, or in a pass of `fault_tolerance`. The locked parts of a pass are one step. -/
inductive Phase where
  | outside (passed : Bool)
  | submitted
  | readStop
  | readStatus (wantStop : Bool)
  | readJob
  | readFinished
  | scan (i : Nat) (allFinished : Bool)
  | cancelTest (i : Nat)
  | cancelLocked (i : Nat)
  | restartServer
  | waitStart
  | restartTest (i : Nat)
  | restartLocked (i : Nat)
  | loopTest (i : Nat)
  | loopLocked (i : Nat)
  | asleep (i : Nat)
  | timeouts (i : Nat)
  | ended
  deriving DecidableEq, Repr

/-- `drops` and `restarts` record the calls of `send_drop` and of `restart`. -/
structure Launcher (D : Type) where
  groups : List (Group D)
  server : ServerJob
  messenger : MessengerState
  phase : Phase
  launched : Nat
  drops : List Nat
  restarts : List Nat
  deriving DecidableEq, Repr

/-- The options of the study the threads look at; `simulationTimeout` says whether it is
positive. -/
structure StudyConfig where
  batchSize : Int
  disableFaultTolerance : Bool
  simulationTimeout : Bool
  deriving DecidableEq, Repr

/-- The launcher when the groups have been created and the threads started. -/
def startLauncher {D : Type} (groups : List (Group D)) : Launcher D :=
  { groups := groups, server := ⟨running, running, false⟩, messenger := .idle
    phase := .outside false, launched := 0, drops := [], restarts := [] }

end State

section Messenger

variable {D : Type}

/-- The messages of the server that change a state. -/
inductive ServerMessage where
  | stop
  | timeout (simuId : Int)
  | groupState (simuId status : Int)
  | server
  | other
  deriving DecidableEq, Repr

/-- The element a Python index means; `none` is an `IndexError`. -/
def pyIndex (length : Nat) (i : Int) : Option Nat :=
  if 0 ≤ i then (if i.toNat < length then some i.toNat else none)
  else if 0 ≤ i + length then some (i + length).toNat else none

/-- `group_state` on one group, and whether it raises an `IndexError`. -/
def groupState (simuId : Nat) (status : Int) (group : Group D) : Group D × Bool :=
  if group.jobType = 3 then
    let group := if group.status < 2 then { group with status := status } else group
    if simuId < group.simuStatus.length then
      let group := { group with simuStatus := group.simuStatus.set simuId status }
      (if group.simuStatus.all (· == 2) then { group with status := 2 } else group, false)
    else (group, true)
  else ({ group with status := status }, false)

/-- `Messenger.run` on one message. -/
def handleMessage (batchSize : Int) (launcher : Launcher D) : ServerMessage → Launcher D
  | .stop => { launcher with
      server := { launcher.server with status := finished, wantStop := true }
      messenger := .stopping 0 }
  | .timeout simuId =>
      if simuId = -1 then launcher
      else
        match pyIndex launcher.groups.length (simuId / batchSize) with
        | none => { launcher with messenger := .crashed }
        | some g => { launcher with
            groups := launcher.groups.modify g fun group =>
              { group with status := timedOutStatus } }
  | .groupState simuId status =>
      match (pyIndex launcher.groups.length (simuId / batchSize)).bind fun g =>
          launcher.groups[g]?.map (g, ·) with
      | none => { launcher with messenger := .crashed }
      | some (g, group) =>
          let (group, raised) := groupState (simuId % batchSize).toNat status group
          { launcher with
            groups := launcher.groups.set g group
            messenger := if raised then .crashed else launcher.messenger }
  | .server => { launcher with
      server := { launcher.server with status := running, jobStatus := running } }
  | .other => launcher

/-- One turn of the loop of `stop` over the groups. -/
def stopNext (launcher : Launcher D) (next : Nat) : Launcher D :=
  if next < launcher.groups.length then
    { launcher with
      groups := launcher.groups.modify next fun group => { group with status := finished }
      messenger := .stopping (next + 1) }
  else { launcher with messenger := .idle }

/-- `StateChecker.run` on one group: `check_job` is a user function. -/
def checkGroupJob (group : Group D) (jobStatus : Int) : Group D :=
  if group.jobStatus < finished ∧ group.jobStatus > notSubmitted
  then { group with jobStatus := jobStatus } else group

end Messenger

section FaultTolerance

variable {D : Type}

/-- How the user functions called by a step end. -/
inductive UserOutcome where
  | returns
  | cancelRaises
  | launchRaises
  deriving DecidableEq, Repr

/-- The numbers `restart` sends with `send_drop`. -/
def dropIds (group : Group D) : List Nat :=
  if group.jobType = 3 then group.simuId else [group.groupId]

/-- `restart` of both kinds of groups: the group after it, the numbers dropped, and whether it
raises an exception. That of a `MultiSimuGroup` always does: it passes the function that `cancel`
returns to `run_until_complete`, which takes an awaitable. -/
def restart (outcome : UserOutcome) (group : Group D) : Group D × List Nat × Bool :=
  if outcome = .cancelRaises ∨ group.jobType = 3 then (group, [], true)
  else
    let group := { group with nbRestarts := group.nbRestarts + 1 }
    if group.nbRestarts > 3 then
      ({ group with jobStatus := finished, status := finished }, dropIds group, false)
    else if outcome = .launchRaises then (group, [], true)
    else ({ group with jobStatus := waiting, status := waiting }, [], false)

/-- A call of `restart` in a pass. After an exception the study is stopped. -/
def restartAt (outcome : UserOutcome) (i : Nat) (next : Phase) (launcher : Launcher D) :
    Launcher D :=
  match launcher.groups[i]? with
  | none => { launcher with phase := .ended }
  | some group =>
      let (group, dropped, raised) := restart outcome group
      { launcher with
        groups := launcher.groups.set i group
        drops := launcher.drops ++ dropped
        restarts := launcher.restarts ++ [i]
        phase := if raised then .ended else next }

/-- `group.status < FINISHED and group.status > NOT_SUBMITTED`. -/
def isOpen (group : Group D) : Bool :=
  decide (group.status < finished) && decide (group.status > notSubmitted)

/-- A loop over the groups: `inside` for the group number `i`, `after` behind the last one. -/
def forGroup (launcher : Launcher D) (i : Nat) (after : Phase) (inside : Group D → Phase) :
    Launcher D :=
  { launcher with phase := (launcher.groups[i]?.map inside).getD after }

/-- The next step of the main thread. `late` says whether the simulation timeout has passed. -/
def mainStep (config : StudyConfig) (outcome : UserOutcome) (late : Bool) (launcher : Launcher D) :
    Option (Launcher D) :=
  match launcher.phase with
  | .outside _ =>
      some { launcher with
        phase := if config.disableFaultTolerance then .outside true else .readStop }
  | .submitted =>
      some { launcher with
        groups := launcher.groups.modify launcher.launched fun group =>
          { group with status := waiting }
        launched := launcher.launched + 1
        phase := .outside false }
  | .readStop => some { launcher with phase := .readStatus launcher.server.wantStop }
  | .readStatus true => some { launcher with phase := .loopTest 0 }
  | .readStatus false =>
      some { launcher with
        phase := if launcher.server.status ≠ running then .readFinished else .readJob }
  | .readJob =>
      some { launcher with
        phase := if launcher.server.jobStatus > running then .readFinished else .loopTest 0 }
  | .readFinished =>
      some { launcher with
        phase := if launcher.server.status ≠ finished then .scan 0 true else .loopTest 0 }
  | .scan i allFinished =>
      some (forGroup launcher i (if allFinished then .loopTest 0 else .cancelTest 0) fun group =>
        .scan (i + 1) (allFinished && group.status == finished))
  | .cancelTest i =>
      some (forGroup launcher i .restartServer fun group =>
        if isOpen group then .cancelLocked i else .cancelTest (i + 1))
  | .cancelLocked i =>
      some { launcher with
        phase := if outcome = .cancelRaises then .ended else .cancelTest (i + 1) }
  | .restartServer =>
      some (if outcome = .returns then
          { launcher with
            server := if launcher.server.wantStop
              then { launcher.server with jobStatus := finished }
              else { launcher.server with status := waiting, jobStatus := waiting }
            phase := .waitStart }
        else { launcher with phase := .ended })
  | .waitStart =>
      if launcher.server.status < running then none
      else some { launcher with phase := .restartTest 0 }
  | .restartTest i =>
      some (forGroup launcher i (.loopTest 0) fun group =>
        if isOpen group then .restartLocked i else .restartTest (i + 1))
  | .restartLocked i => some (restartAt outcome i (.restartTest (i + 1)) launcher)
  | .loopTest i =>
      some (forGroup launcher i (.outside true) fun group =>
        if isOpen group then .loopLocked i else .timeouts i)
  | .loopLocked i =>
      some (forGroup launcher i .ended fun group =>
        if group.status ≤ running ∧ group.jobStatus = finished then .asleep i else .timeouts i)
  | .asleep i =>
      (launcher.groups[i]?).map fun group =>
        if group.status ≤ running then restartAt outcome i (.timeouts i) launcher
        else { launcher with phase := .timeouts i }
  | .timeouts i =>
      (launcher.groups[i]?).map fun group =>
        if group.status = waiting ∧ group.jobStatus = running ∧ config.simulationTimeout = true ∧
            late = true ∨ group.status = timedOutStatus then
          restartAt outcome i (.loopTest (i + 1)) launcher
        else { launcher with phase := .loopTest (i + 1) }
  | .ended => none

/-- `Group.launch` of the next group, up to the write of `job_status`. -/
def launchNext (outcome : UserOutcome) (launcher : Launcher D) : Option (Launcher D) :=
  if launcher.phase = .outside true ∧ launcher.launched < launcher.groups.length ∧
      launcher.server.wantStop = false then
    some (if outcome = .launchRaises then { launcher with phase := .ended }
      else { launcher with
        groups := launcher.groups.modify launcher.launched fun group =>
          { group with jobStatus := waiting }
        phase := .submitted })
  else none

end FaultTolerance

section Step

variable {D : Type}

/-- What one of the threads does next. -/
inductive LauncherEvent where
  | message (msg : ServerMessage)
  | stopNext
  | serverTimeout
  | checkServerJob (jobStatus : Int)
  | checkGroupJob (i : Nat) (jobStatus : Int)
  | launch (outcome : UserOutcome)
  | main (outcome : UserOutcome) (late : Bool)
  deriving DecidableEq, Repr

def launcherStep (config : StudyConfig) (launcher : Launcher D) :
    LauncherEvent → Option (Launcher D)
  | .message msg =>
      if launcher.messenger = .idle then some (handleMessage config.batchSize launcher msg)
      else none
  | .stopNext =>
      match launcher.messenger with
      | .stopping next => some (stopNext launcher next)
      | _ => none
  | .serverTimeout =>
      if launcher.messenger = .idle ∧ launcher.server.status ≠ finished then
        some { launcher with server := { launcher.server with status := timedOutStatus } }
      else none
  | .checkServerJob jobStatus =>
      some { launcher with server := { launcher.server with jobStatus := jobStatus } }
  | .checkGroupJob i jobStatus =>
      some { launcher with
        groups := launcher.groups.modify i fun group => checkGroupJob group jobStatus }
  | .launch outcome => launchNext outcome launcher
  | .main outcome late => mainStep config outcome late launcher

end Step

end Melissa
