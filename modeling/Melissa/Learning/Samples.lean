import Melissa.Learning.Port

/-! Which samples the main loop of a learning study hands on, over whole runs of the server. -/

namespace Melissa

open Runs

section Reading

variable {D : Type}

def addedSamples (learner : Learner D) : List (Sample D) := learner.added.map Prod.snd

/-- How often `main` takes the sample in the buffer after a call of the branch for status 0. -/
def copiesRead (learner : Learner D) : Nat :=
  if learner.branch = .learning ∧ learner.call.data.valSize ≠ 0 then 1 else 0

/-- How often it takes the sample on the way to the next call. -/
def copiesStarted (learner : Learner D) : Nat :=
  if learner.call.data.status = 0 then if learner.modelIsInit then 0 else 1
  else if learner.call.data.status = 3 then 1
  else 0

theorem addedSamples_addTo (set : LearningSet) (learner : Learner D) :
    addedSamples (addTo set learner) = addedSamples learner ++ [buffered learner.call.data] := by
  simp [addedSamples, addTo]

theorem readResult_parts (learner : Learner D) :
    (readResult learner).call = learner.call ∧
      (readResult learner).modelIsInit = learner.modelIsInit ∧
      addedSamples (readResult learner) =
        addedSamples learner ++
          List.replicate (copiesRead learner) (buffered learner.call.data) := by
  unfold readResult copiesRead
  split
  · unfold addResult
    split
    · exact ⟨rfl, rfl, addedSamples_addTo _ _⟩
    · exact ⟨rfl, rfl, addedSamples_addTo _ _⟩
  · exact ⟨rfl, rfl, (List.append_nil _).symm⟩

theorem addedSamples_afterCall (learner : Learner D) :
    addedSamples (afterCall learner) = addedSamples learner ++
      List.replicate (copiesRead learner + copiesStarted learner)
        (buffered learner.call.data) := by
  obtain ⟨call, model, read⟩ := readResult_parts learner
  have initialised : addedSamples (initModel (readResult learner)) =
      addedSamples (readResult learner) ++ [buffered learner.call.data] := by
    rw [initModel, addedSamples_addTo, ← call]
    rfl
  have unread (none_started : copiesStarted learner = 0) : addedSamples (readResult learner) =
      addedSamples (readResult learner) ++
        List.replicate (copiesStarted learner) (buffered learner.call.data) := by
    rw [none_started, List.replicate_zero, List.append_nil]
  rw [List.replicate_add, ← List.append_assoc, ← read]
  unfold afterCall
  dsimp only
  rw [call, model]
  split
  · rename_i zero
    have count : copiesStarted learner = if learner.modelIsInit then 0 else 1 := if_pos zero
    cases init : learner.modelIsInit with
    | true => exact unread (by rw [count, init, if_pos rfl])
    | false =>
        rw [count, init]
        exact initialised
  · rename_i one
    have count : copiesStarted learner = 0 := by simp [copiesStarted, one]
    exact unread count
  · rename_i two
    have count : copiesStarted learner = 0 := by simp [copiesStarted, two]
    cases learner.modelIsInit with
    | true => exact unread count
    | false => exact unread count
  · rename_i three
    have count : copiesStarted learner = 1 := by simp [copiesStarted, three]
    rw [count]
    exact initialised
  · rename_i notZero _ _ notThree
    have count : copiesStarted learner = 0 := by
      rw [copiesStarted, if_neg notZero, if_neg notThree]
    exact unread count

end Reading

section Steps

variable {D : Type}

/-- The exits of a pass that suit the branch of `main` that has made the call. `fresh` says that the
pass has accepted a sample; `status` and `valSize` are those of the buffer that `main` finds. -/
def SafeExit (ending : Ending) (branch : Branch) (fresh : Prop) (status valSize : Nat) : Prop :=
  match ending with
  | .continues => True
  | .sample =>
      match branch with
      | .first => fresh
      | .learning => fresh ∧ status ≠ 3
      | _ => fresh ↔ status = 3
  | _ => if branch = .learning then fresh ∨ valSize = 0 else ¬ fresh

theorem safeExit_returned {ending : Ending} (early : ending = .signal ∨ ending = .stop)
    (branch : Branch) (fresh : Prop) (status valSize : Nat) :
    SafeExit ending branch fresh status valSize ↔
      if branch = .learning then fresh ∨ valSize = 0 else ¬ fresh := by
  rcases early with rfl | rfl
  · exact Iff.rfl
  · exact Iff.rfl

theorem safeExit_sample (branch : Branch) {fresh : Prop} (isFresh : fresh) (status valSize : Nat) :
    SafeExit .sample branch fresh status valSize ↔
      match branch with
      | .first => True
      | .learning => status ≠ 3
      | _ => status = 3 := by
  cases branch with
  | first => exact iff_of_true isFresh trivial
  | learning => exact and_iff_right isFresh
  | saving => exact iff_true_left isFresh
  | reading => exact iff_true_left isFresh
  | spinning => exact iff_true_left isFresh
  | ended => exact iff_true_left isFresh

/-- `main` in a call. -/
structure InCall (learner : Learner D) : Prop where
  settings : Settings learner.call
  status : learner.call.data.status = 0 ∨ learner.call.data.status = 3
  model : learner.modelIsInit = true ↔ learner.branch ≠ .first

/-- Between two passes `main` is in a call, or it makes no further one. -/
def Between (learner : Learner D) : Prop :=
  learner.branch = .spinning ∨ learner.branch = .ended ∨ InCall learner

theorem copiesStarted_stopped {learner : Learner D}
    (status : learner.call.data.status = 1 ∨ learner.call.data.status = 2) :
    copiesStarted learner = 0 := by
  unfold copiesStarted
  rw [if_neg (by omega), if_neg (by omega)]

theorem copiesStarted_sample {learner : Learner D}
    (model : learner.modelIsInit = true ↔ learner.branch ≠ .first)
    (status : learner.call.data.status = 0 ∨ learner.call.data.status = 3) :
    copiesStarted learner =
      if learner.branch = .first ∨ learner.call.data.status = 3 then 1 else 0 := by
  unfold copiesStarted
  rcases status with zero | three
  · cases init : learner.modelIsInit with
    | true => simp [zero, model.mp init]
    | false =>
        have first : learner.branch = .first := by
          by_contra other
          rw [model.mpr other] at init
          cases init
        simp [zero, first]
  · simp [three]

/-- A call that returns without a flagged sample hands on what the branch for status 0 reads. -/
private theorem read_iff {branch : Branch} {fresh : Prop} [Decidable fresh] {valSize : Nat}
    (positive : fresh → 0 < valSize) :
    (if branch = .learning then fresh ∨ valSize = 0 else ¬ fresh) ↔
      (if branch = .learning ∧ valSize ≠ 0 then 1 else 0) = if fresh then 1 else 0 := by
  by_cases isFresh : fresh
  · have size : valSize ≠ 0 := Nat.ne_of_gt (positive isFresh)
    by_cases learning : branch = .learning
    · simp [learning, isFresh, size]
    · simp [learning, isFresh]
  · by_cases learning : branch = .learning
    · simp [learning, isFresh]
    · simp [learning, isFresh]

/-- An exit suits the branch exactly when `main` takes the buffer as often as a sample has been
accepted. -/
theorem safeExit_iff (learner : Learner D) {ending : Ending} {fresh : Prop} [Decidable fresh]
    (model : learner.modelIsInit = true ↔ learner.branch ≠ .first)
    (status : StatusOf ending learner.call.data.status) (returns : ending ≠ .continues)
    (flagged : ending = .sample → 0 < learner.call.data.valSize)
    (positive : fresh → 0 < learner.call.data.valSize) :
    SafeExit ending learner.branch fresh learner.call.data.status learner.call.data.valSize ↔
      copiesRead learner + copiesStarted learner = if fresh then 1 else 0 := by
  cases ending with
  | continues => exact absurd rfl returns
  | checkpoint =>
      rw [copiesStarted_stopped (Or.inr status), Nat.add_zero]
      exact read_iff positive
  | signal =>
      rw [copiesStarted_stopped (Or.inr status), Nat.add_zero]
      exact read_iff positive
  | stop =>
      rw [copiesStarted_stopped (Or.inl status), Nat.add_zero]
      exact read_iff positive
  | sample =>
      have size : learner.call.data.valSize ≠ 0 := Nat.ne_of_gt (flagged rfl)
      rw [copiesStarted_sample model status, copiesRead]
      by_cases isFresh : fresh
      · cases branch : learner.branch with
        | first => simp [SafeExit, isFresh]
        | learning => simp [SafeExit, isFresh, size]
        | saving => simp [SafeExit, isFresh]
        | reading => simp [SafeExit, isFresh]
        | spinning => simp [SafeExit, isFresh]
        | ended => simp [SafeExit, isFresh]
      · cases branch : learner.branch with
        | first => simp [SafeExit, isFresh]
        | learning => simp [SafeExit, isFresh, size]
        | saving => simp [SafeExit, isFresh]
        | reading => simp [SafeExit, isFresh]
        | spinning => simp [SafeExit, isFresh]
        | ended => simp [SafeExit, isFresh]

end Steps

section Delivery

variable {D : Type}

theorem between_startLearning {study : Study D} {rank : LoopState D} (opened : Opened study rank)
    (learning : study.options.learning > 0) : Between (startLearning rank) := by
  refine Or.inr (Or.inr ⟨⟨?_, ?_⟩, Or.inl rfl, iff_of_false nofun (not_not_intro rfl)⟩)
  · cases opened with
    | first now => exact learning
    | again simulations nbFinishedSimulations now => exact learning
  · intro allocated
    cases opened with
    | first now => cases allocated
    | again simulations nbFinishedSimulations now => cases allocated

theorem between_afterCall {learner : Learner D} (settings : Settings learner.call) :
    Between (afterCall learner) := by
  obtain ⟨call, _, _⟩ := readResult_parts learner
  have next (branch : Branch) (other : branch ≠ .first) (ready : Learner D)
      (same : ready.call = learner.call) (initialised : ready.modelIsInit = true) :
      Between (nextCall branch ready) := by
    refine Or.inr (Or.inr ⟨⟨?_, ?_⟩, Or.inl rfl, iff_of_true initialised other⟩)
    · simpa [nextCall, same] using settings.learning
    · simpa [nextCall, same] using settings.nbParam
  unfold afterCall
  dsimp only
  split
  · split
    · rename_i initialised
      exact next .learning nofun _ call initialised
    · exact next .learning nofun (initModel (readResult learner)) call rfl
  · exact Or.inr (Or.inl rfl)
  · split
    · rename_i initialised
      exact next .saving nofun _ call initialised
    · exact Or.inl rfl
  · exact next .reading nofun (initModel (readResult learner)) call rfl
  · exact Or.inl rfl

/-- What a pass that returns from the call adds to the sets. -/
theorem afterCall_spec {learner : Learner D} {call : Call D} {ending : Ending}
    {accepted : Option (Sample D)} (inCall : InCall learner) (returns : ending ≠ .continues)
    (spec : PassSpec accepted ending call) :
    (SafeExit ending learner.branch (accepted.isSome = true) call.data.status call.data.valSize ↔
        (addedSamples (afterCall { learner with call := call })).length =
          (addedSamples learner).length + accepted.toList.length) ∧
      (SafeExit ending learner.branch (accepted.isSome = true) call.data.status call.data.valSize →
        addedSamples (afterCall { learner with call := call }) =
          addedSamples learner ++ accepted.toList) := by
  have positive (fresh : accepted.isSome = true) : 0 < call.data.valSize := by
    obtain ⟨sample, same⟩ := Option.isSome_iff_exists.mp fresh
    exact (spec.own sample same).2.1
  have once := safeExit_iff { learner with call := call } inCall.model spec.status returns
    spec.flagged positive
  have added := addedSamples_afterCall { learner with call := call }
  have before : addedSamples { learner with call := call } = addedSamples learner := rfl
  rw [before] at added
  dsimp only at once added
  constructor
  · rw [once, added, List.length_append, List.length_replicate]
    cases accepted with
    | none => simp
    | some sample => simp
  · intro safe
    rw [added, once.mp safe]
    cases accepted with
    | none => rfl
    | some sample =>
        rw [(spec.own sample rfl).2.2]
        rfl

theorem safeIdle_iff {learner : Learner D} {pass : Pass D} {ready : LoopState D} {call : Call D}
    {ending : Ending} (learning : ready.server.options.learning > 0)
    (port : PortReached learner.call.rank pass ready)
    (ended : endTests { learner.call with
      rank := ready
      data := if opens learner.call.rank pass
        then openBuffer ready.server.options.nbParameters learner.call.data
        else learner.call.data } = some (ending, call)) :
    SafeIdle learner pass ↔
      SafeExit ending learner.branch False call.data.status call.data.valSize := by
  have returns : Returns learner.call.rank pass learner.call.rank.server.nbFinishedSimulations ↔
      ready.endSignal.isSome = true ∨ stopTest ready.server = true :=
    returns_iff port.endSignal (by rw [port.options]; rfl) port.finished
  have tests := endTests_cases learning ended
  unfold SafeIdle
  rw [returns]
  cases opening : opens learner.call.rank pass with
  | true =>
      rw [opening, if_pos rfl] at tests
      refine iff_of_true nofun ?_
      rcases tests with ⟨_, early, size⟩ | ⟨_, _, ⟨_, _, positive⟩ | ⟨rfl, _⟩⟩
      · rw [safeExit_returned early, size]
        simp [openBuffer]
      · exact absurd positive (Nat.lt_irrefl 0)
      · trivial
  | false =>
      rw [opening, if_neg Bool.false_ne_true] at tests
      dsimp only at tests
      rcases tests with ⟨stops, early, size⟩ | ⟨stays, same, ⟨rfl, flagged, positive⟩ | ⟨rfl, idle⟩⟩
      · rw [safeExit_returned early, size]
        simp [stops]
        tauto
      · rw [same]
        have size : learner.call.data.valSize ≠ 0 := positive.ne'
        simp only [stays, flagged, ne_eq, size, not_false_eq_true, forall_const, IsEmpty.forall_iff,
          true_and]
        cases learner.branch with
        | first => simp [SafeExit]
        | learning => simp [SafeExit]
        | saving => simp [SafeExit]
        | reading => simp [SafeExit]
        | spinning => simp [SafeExit]
        | ended => simp [SafeExit]
      · refine iff_of_true (fun _ size => ⟨fun stops => absurd stops stays, ?_⟩) trivial
        intro _ flagged
        exact absurd ⟨flagged, Nat.pos_of_ne_zero size⟩ idle

theorem admitted_only {server : Server D} {m : SimuData D} {fieldId : Nat}
    (known : admittedField server m = some fieldId) {P : Nat → Prop} :
    (∀ other, Admitted server m other → P other) ↔ P fieldId := by
  constructor
  · intro all
    exact all fieldId (admittedField_eq_some.mp known)
  · intro holds other admitted
    rw [admittedField_eq_some.mpr admitted] at known
    cases known
    exact holds

/-- The status in the buffer once the head of a message has been read into it. -/
theorem headStatus_iff {call : Call D} {ready : LoopState D} {pass : Pass D} {m : SimuData D}
    {fieldId : Nat} (port : PortReached call.rank pass ready) {head : SimulationData D}
    (read : head = readHead (if opens call.rank pass
      then openBuffer ready.server.options.nbParameters call.data else call.data) m) :
    (if restores ready.server m fieldId then { head with status := 3 } else head).status = 3 ↔
      ReadsSaved call pass m fieldId := by
  subst read
  unfold ReadsSaved
  rw [← restores_port port]
  cases restores ready.server m fieldId with
  | true => simp
  | false =>
      cases opens call.rank pass with
      | true => simp [readHead, openBuffer]
      | false => simp [readHead]

variable [Zero D] [Add D] [Sub D] [Mul D] [Div D] [NatCast D] [IntCast D]
  [Pow D ℕ] [LT D] [DecidableLT D] [LE D] [DecidableLE D] [Libm D]

/-- The samples that the server accepts in the passes of a run. -/
def acceptedSamples (restore : Restore D) : Learner D → List (Pass D) → List (Sample D)
  | _, [] => []
  | learner, pass :: rest =>
      (acceptedSample restore learner.call.rank pass).toList ++
        match learnStep restore learner pass with
        | none => []
        | some next => acceptedSamples restore next rest

theorem acceptedSamples_concat {restore : Restore D} {start mid : Learner D}
    {front : List (Pass D)} (reached : run (learnStep restore) start front = some mid)
    (pass : Pass D) : acceptedSamples restore start (front ++ [pass]) =
      acceptedSamples restore start front ++
        (acceptedSample restore mid.call.rank pass).toList := by
  induction front generalizing start with
  | nil =>
      cases reached
      simp only [List.nil_append, acceptedSamples]
      split
      · rw [List.append_nil]
      · rw [List.append_nil]
  | cons first rest ih =>
      obtain ⟨next, taken, onward⟩ := Option.bind_eq_some_iff.mp reached
      simp only [List.cons_append, acceptedSamples, taken]
      rw [ih onward, List.append_assoc]

theorem safeMessage_iff {restore : Restore D} {learner : Learner D} {pass : Pass D}
    {ready stored : LoopState D} {head : SimulationData D} {call : Call D} {ending : Ending}
    {m : SimuData D} {reply : Job D} {fieldId : Nat} (learning : ready.server.options.learning > 0)
    (port : PortReached learner.call.rank pass ready)
    (branch : (dataBranch restore ready pass m reply fieldId).result = some stored)
    (size : head.valSize = m.vectSize)
    (status : head.status = 3 ↔ ReadsSaved learner.call pass m fieldId)
    (ended : endTests
      { rank := stored
        data := readBody ready.server.options.nbParameters head m
          (knownParameters stored.server m.simuId)
        newData := !alreadyComputed restore ready.server m fieldId } = some (ending, call)) :
    SafeMessage restore learner pass m fieldId ↔
      SafeExit ending learner.branch
        (newSample restore learner.call.rank pass m fieldId = true)
        call.data.status call.data.valSize := by
  obtain ⟨_, _, accepted⟩ := dataBranch_cases branch
  obtain ⟨simu, data, loaded, updated, _, parts⟩ := acceptMessage_cases accepted
  have counted : stored.server.nbFinishedSimulations =
      finishedWith restore learner.call.rank pass m fieldId := by
    have now := finishesNow_accepted parts
    rw [parts.finished, finishedWith, ← finishesNow_port port, port.finished]
    exact if_congr now.symm rfl rfl
  have returns : Returns learner.call.rank pass
        (finishedWith restore learner.call.rank pass m fieldId) ↔
      stored.endSignal.isSome = true ∨ stopTest stored.server = true :=
    returns_iff ((dataBranch_endSignal branch).trans port.endSignal)
      (by rw [parts.options, port.options]; rfl) counted
  have computed := alreadyComputed_port restore port m fieldId
  obtain ⟨_, readStatus, readSize⟩ := readBody_head ready.server.options.nbParameters head m
    (knownParameters stored.server m.simuId)
  have tests := endTests_cases (by rw [(dataBranch_settings branch).learning]; exact learning) ended
  unfold SafeMessage
  rw [returns]
  dsimp only at tests
  rw [readSize, size, computed, Bool.not_eq_true'] at tests
  rcases tests with ⟨stops, early, same⟩ | ⟨stays, same, ⟨rfl, fresh, positive⟩ | ⟨rfl, none_new⟩⟩
  · rw [safeExit_returned early, same]
    simp [stops]
  · have new : newSample restore learner.call.rank pass m fieldId = true := by
      simp [newSample, fresh, positive]
    rw [safeExit_sample learner.branch new, same]
    dsimp only
    rw [readStatus]
    simp only [stays, new, IsEmpty.forall_iff, true_and, not_false_eq_true, forall_const]
    cases learner.branch with
    | first => exact Iff.rfl
    | learning => exact not_congr status.symm
    | saving => exact status.symm
    | reading => exact status.symm
    | spinning => exact status.symm
    | ended => exact status.symm
  · have old : newSample restore learner.call.rank pass m fieldId = false := by
      rw [newSample, Bool.and_eq_false_iff, decide_eq_false_iff_not, Bool.not_eq_false']
      by_contra both
      simp only [not_or, not_not, Bool.not_eq_true] at both
      exact none_new ⟨both.2, both.1⟩
    refine iff_of_true ⟨fun stops => absurd stops stays, fun _ new => ?_⟩ trivial
    rw [old] at new
    cases new

/-- What the server accepts of a message that its data port takes is told by the state before the
pass. -/
theorem sampleAt_message {restore : Restore D} {rank ready stored : LoopState D} {pass : Pass D}
    {m : SimuData D} {reply : Job D} {fieldId : Nat} (port : PortReached rank pass ready)
    (found : pass.data = some (m, reply)) (known : admittedField ready.server m = some fieldId)
    (branch : (dataBranch restore ready pass m reply fieldId).result = some stored) :
    (sampleAt restore ready pass).isSome = true ↔
      newSample restore rank pass m fieldId = true := by
  rw [newSample, ← alreadyComputed_port restore port]
  simp only [sampleAt, found, Option.bind_some, known, branch]
  simp

/-- The exit of a pass suits the branch of `main` exactly when the state before the pass says so. -/
theorem safePass_iff {restore : Restore D} {learner : Learner D} {pass : Pass D} {ending : Ending}
    {call : Call D} (inCall : InCall learner)
    (returned : runPass restore learner.call pass = some (ending, call)) :
    SafePass restore learner pass ↔ SafeExit ending learner.branch
      ((acceptedSample restore learner.call.rank pass).isSome = true)
      call.data.status call.data.valSize := by
  have settings := inCall.settings
  have early := checkTimes_endsEarly learner.call.rank pass
  simp only [runPass, Option.bind_eq_bind, Option.bind_eq_some_iff] at returned
  obtain ⟨saved, checkpoint, returned⟩ := returned
  have learns : (checkTimes learner.call.rank pass).server.options.learning > 0 := by
    rw [(checkTimes_settings learner.call.rank pass).1.learning]
    exact settings.learning
  unfold SafePass acceptedSample atPort
  dsimp only
  rw [Option.bind_eq_bind, checkpoint, Option.bind_some]
  split at returned
  · rename_i ends
    cases returned
    rw [if_pos (early.mp ends), if_pos ends, if_pos ends.1]
    simp [SafeExit]
  · rename_i goes
    have timely :
        checkpointDue (checkTimes learner.call.rank pass).server (pass.clock 2) = false := by
      rw [← Bool.not_eq_true]
      exact fun due => goes ⟨due, learns⟩
    rw [if_neg (fun ends => goes (early.mpr ends)), if_neg goes]
    rw [timely, if_neg Bool.false_ne_true] at returned
    simp only [Option.bind_eq_some_iff] at returned
    obtain ⟨⟨ready, opened⟩, reached, received⟩ := returned
    obtain ⟨port, rfl⟩ := portReached settings.learning checkpoint reached
    rw [reached, Option.map_some, Option.bind_some]
    have learning : ready.server.options.learning > 0 := by
      rw [port.options]
      exact settings.learning
    unfold receiveSample at received
    cases found : pass.data with
    | none =>
        rw [found] at received
        have nothing : ((sampleAt restore ready pass).isSome = true) = False := by
          simp [sampleAt_idle restore ready found]
        rw [nothing]
        exact safeIdle_iff learning port received
    | some message =>
        obtain ⟨m, reply⟩ := message
        rw [found] at received
        dsimp only at received ⊢
        cases known : admittedField ready.server m with
        | none =>
            rw [known] at received
            cases received
            rw [admittedField_port port] at known
            exact iff_of_true (fun fieldId admitted =>
              absurd admitted (admittedField_eq_none.mp known fieldId)) trivial
        | some fieldId =>
            rw [known] at received
            obtain ⟨stored, branch, ended⟩ := Option.bind_eq_some_iff.mp received
            have fresh := propext (sampleAt_message port found known branch)
            rw [admittedField_port port] at known
            rw [admitted_only known, fresh]
            apply safeMessage_iff learning port branch ?_ (headStatus_iff port rfl) ended
            split
            · rfl
            · rfl

/-- What a step adds to the sets. -/
theorem learnStep_spec {restore : Restore D} {learner next : Learner D} {pass : Pass D}
    (between : Between learner) (answers : LauncherAnswers pass)
    (taken : learnStep restore learner pass = some next) :
    Between next ∧
      (SafePass restore learner pass ↔ (addedSamples next).length = (addedSamples learner).length +
        (acceptedSample restore learner.call.rank pass).toList.length) ∧
      (SafePass restore learner pass → addedSamples next =
        addedSamples learner ++ (acceptedSample restore learner.call.rank pass).toList) := by
  unfold learnStep at taken
  split at taken
  · cases taken
  · rename_i running
    have inCall : InCall learner := by
      rcases between with spinning | ended | inCall
      · exact absurd (Or.inl spinning) running
      · exact absurd (Or.inr ended) running
      · exact inCall
    obtain ⟨⟨ending, call⟩, returned, done⟩ := Option.map_eq_some_iff.mp taken
    have spec := runPass_spec inCall.settings inCall.status answers returned
    rw [safePass_iff inCall returned]
    dsimp only at done
    by_cases continues : ending = .continues
    · rw [if_pos continues] at done
      cases done
      subst continues
      have none_accepted : acceptedSample restore learner.call.rank pass = none := by
        cases accepted : acceptedSample restore learner.call.rank pass with
        | none => rfl
        | some sample => exact absurd rfl (spec.own sample accepted).1
      rw [none_accepted]
      constructor
      · exact Or.inr (Or.inr ⟨spec.settings, spec.status, inCall.model⟩)
      · exact ⟨iff_of_true trivial rfl, fun _ => (List.append_nil _).symm⟩
    · rw [if_neg continues] at done
      cases done
      constructor
      · exact between_afterCall spec.settings
      · exact afterCall_spec inCall continues spec

/-- Every accepted sample has been added once and nothing else, wherever the run has got to. -/
def DeliveredOnce (restore : Restore D) (start : Learner D) (passes : List (Pass D)) : Prop :=
  ∀ front back learner, passes = front ++ back →
    run (learnStep restore) start front = some learner →
    (addedSamples learner).Perm (acceptedSamples restore start front)

theorem between_run {restore : Restore D} {start learner : Learner D} {front : List (Pass D)}
    (between : Between start) (answers : ∀ pass ∈ front, LauncherAnswers pass)
    (reached : run (learnStep restore) start front = some learner) : Between learner :=
  run_invariant_of_mem
    (fun _ pass member _ between taken => (learnStep_spec between (answers pass member) taken).1)
    between reached

/-- While all passes are safe, the samples are added in the order in which they are accepted. -/
theorem addedSamples_run {restore : Restore D} {start learner : Learner D} {front : List (Pass D)}
    (between : Between start) (none_added : addedSamples start = [])
    (answers : ∀ pass ∈ front, LauncherAnswers pass)
    (safe : Along (learnStep restore) (fun learner pass _ => SafePass restore learner pass) start
      front)
    (reached : run (learnStep restore) start front = some learner) :
    addedSamples learner = acceptedSamples restore start front := by
  induction front using List.reverseRecOn generalizing learner with
  | nil =>
      cases reached
      exact none_added
  | append_singleton front pass ih =>
      obtain ⟨mid, before, taken⟩ := run_concat_eq_some.mp reached
      rw [List.forall_mem_append, List.forall_mem_singleton] at answers
      obtain ⟨safeFront, safeLast⟩ := along_append safe before
      have between' := between_run between answers.1 before
      obtain ⟨_, _, added⟩ := learnStep_spec between' answers.2 taken
      calc
        addedSamples learner =
            addedSamples mid ++ (acceptedSample restore mid.call.rank pass).toList :=
          added (safeLast learner taken).1
        _ = acceptedSamples restore start front ++
            (acceptedSample restore mid.call.rank pass).toList := by
          rw [ih answers.1 safeFront before]
        _ = acceptedSamples restore start (front ++ [pass]) :=
          (acceptedSamples_concat before pass).symm

/-- A pass after which the added samples are the accepted ones, as before it, is safe. -/
theorem safePass_of_delivered {restore : Restore D} {start learner next : Learner D}
    {front : List (Pass D)} {pass : Pass D} (between : Between learner)
    (answers : LauncherAnswers pass)
    (reached : run (learnStep restore) start front = some learner)
    (taken : learnStep restore learner pass = some next)
    (before : (addedSamples learner).Perm (acceptedSamples restore start front))
    (after : (addedSamples next).Perm (acceptedSamples restore start (front ++ [pass]))) :
    SafePass restore learner pass := by
  obtain ⟨_, lengths, _⟩ := learnStep_spec between answers taken
  have later := after.length_eq
  rw [acceptedSamples_concat reached, List.length_append] at later
  rw [lengths, before.length_eq, later]

/-- The samples of a learning study are delivered once exactly in the runs all of whose passes are
safe. -/
theorem deliveredOnce_iff {restore : Restore D} {study : Study D} {rank : LoopState D}
    {passes : List (Pass D)} (opened : Opened study rank) (learning : study.options.learning > 0)
    (answers : ∀ pass ∈ passes, LauncherAnswers pass) :
    DeliveredOnce restore (startLearning rank) passes ↔
      ∀ front pass back learner next, passes = front ++ pass :: back →
        run (learnStep restore) (startLearning rank) front = some learner →
        learnStep restore learner pass = some next → SafePass restore learner pass := by
  have between := between_startLearning opened learning
  constructor
  · intro delivered front pass back learner next cut reached taken
    rw [cut, List.forall_mem_append, List.forall_mem_cons] at answers
    apply safePass_of_delivered (between_run between answers.1 reached) answers.2.1 reached taken
    · exact delivered front (pass :: back) learner cut reached
    · apply delivered (front ++ [pass]) back next (by simpa using cut)
      exact run_concat_eq_some.mpr ⟨learner, reached, taken⟩
  · intro safe front back learner cut reached
    have along := along_iff.mpr safe
    rw [cut] at along
    rw [cut, List.forall_mem_append] at answers
    rw [addedSamples_run between rfl answers.1 (along_append along reached).1 reached]

end Delivery

section Checkpoint

private def heatLearning : Study ℚ :=
  { options := { twoByTwo with learning := 1 }, commData := ⟨0, 1, 1⟩, names := ["heat"] }

private def heatRank : LoopState ℚ :=
  serverInit heatLearning.options.firstStart 0 1 ["heat"]
    (List.replicate heatLearning.options.samplingSize.toNat addSimulation) 0 0

private def polling (now : ℚ) (connection : Option Nat) (data : Option (Int × ℚ)) : Pass ℚ :=
  { clock := fun _ => now, text := none, connection := connection, broadcast := 0
    data := data.map fun (timeStamp, value) =>
      (⟨timeStamp, 0, 0, 1, "heat", [value]⟩, ⟨0, "job", [7]⟩)
    signal := none }

/-- The first time step of a simulation, a poll without message when a checkpoint is due, and the
second time step. -/
private def aroundCheckpoint : List (Pass ℚ) :=
  [polling 1 (some 1) none, polling 2 none (some (0, 3)), polling 20 none none,
    polling 21 none (some (1, 4))]

private theorem answers_aroundCheckpoint : ∀ pass ∈ aroundCheckpoint, LauncherAnswers pass := by
  intro pass member m reply found
  simp only [aroundCheckpoint, List.mem_cons, List.not_mem_nil, or_false] at member
  rcases member with rfl | rfl | rfl | rfl
  · cases found
  · cases found
    rfl
  · cases found
  · cases found
    rfl

theorem deliveredOnce_iff_aroundCheckpoint :
    DeliveredOnce noRestore (startLearning heatRank) aroundCheckpoint ↔
      ∀ front pass back learner next, aroundCheckpoint = front ++ pass :: back →
        run (learnStep noRestore) (startLearning heatRank) front = some learner →
        learnStep noRestore learner pass = some next → SafePass noRestore learner pass := by
  have opened : Opened heatLearning heatRank := .first 0
  exact deliveredOnce_iff opened (by decide) answers_aroundCheckpoint

/-- After the checkpoint the first sample is added again, and the second one is not added. -/
theorem not_deliveredOnce_aroundCheckpoint :
    ¬ DeliveredOnce noRestore (startLearning heatRank) aroundCheckpoint := by
  intro delivered
  have outcome : (run (learnStep noRestore) (startLearning heatRank) aroundCheckpoint).map
      (fun learner => (addedSamples learner).map Sample.timeStamp) = some [0, 0] := by
    decide +kernel
  have accepted : (acceptedSamples noRestore (startLearning heatRank) aroundCheckpoint).map
      Sample.timeStamp = [0, 1] := by decide +kernel
  obtain ⟨learner, reached, added⟩ := Option.map_eq_some_iff.mp outcome
  have same := delivered aroundCheckpoint [] learner (List.append_nil _).symm reached
  have stamps := same.map Sample.timeStamp
  rw [added, accepted] at stamps
  exact absurd stamps (by decide)

end Checkpoint

end Melissa
