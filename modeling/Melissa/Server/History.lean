import Melissa.Server.Ready

/-! The bits of a server rank against the messages it has received. -/

namespace Melissa

open Runs

section Received

variable {D : Type}

/-- A data message for this structure, simulation and time step. -/
def IsMessage (start : Server D) (fieldId clientRank simuId timeStep : Nat) : Event D → Prop
  | .data _ m _ => getFieldId start.fields m.fieldName = some fieldId ∧
      m.clientRank = clientRank ∧ m.simuId = simuId ∧ m.timeStamp = (timeStep : Int)
  | _ => False

def Received (start : Server D) (events : List (Event D))
    (fieldId clientRank simuId timeStep : Nat) : Prop :=
  ∃ event ∈ events, IsMessage start fieldId clientRank simuId timeStep event

theorem received_concat {start : Server D} {events : List (Event D)} {event : Event D}
    {fieldId clientRank simuId timeStep : Nat} :
    Received start (events ++ [event]) fieldId clientRank simuId timeStep ↔
      Received start events fieldId clientRank simuId timeStep ∨
        IsMessage start fieldId clientRank simuId timeStep event := by
  simp only [Received, List.mem_append, List.mem_singleton, or_and_right, exists_or, exists_eq_left]

/-- A structure has received something. -/
def Spoken (server : Server D) (fieldId clientRank : Nat) : Prop :=
  ∃ data, entryOf server.fields fieldId clientRank = some data ∧ data.stepsInit = true

/-- A set bit stands for a message, and every message has set its bit. -/
def BitsReceived (start : Server D) (past : List (Event D)) (server : Server D) : Prop :=
  ∀ fieldId clientRank simuId timeStep, timeStep < start.options.nbTimeSteps →
    (Received start past fieldId clientRank simuId timeStep ↔
      ∃ data, entryOf server.fields fieldId clientRank = some data ∧
        bitOf data simuId timeStep = true)

theorem spoken_of_bit {nbSimu fieldId clientRank simuId timeStep : Nat} {server : Server D}
    {data : MelissaData D} (ready : Ready nbSimu server)
    (present : entryOf server.fields fieldId clientRank = some data)
    (set : bitOf data simuId timeStep = true) : Spoken server fieldId clientRank := by
  refine ⟨data, present, ?_⟩
  have state := ready.entries fieldId clientRank data present
  cases initialised : data.stepsInit with
  | true => rfl
  | false =>
      have fresh : data.stepSimu = [] := by simpa [StepsReady, initialised] using state
      simp [bitOf, fresh] at set

end Received

section Steps

variable {D : Type}

theorem isMessage_admitted {start server : Server D} {m : SimuData D} {now : ℚ} {reply : Job D}
    {fieldId fieldId' clientRank simuId timeStep : Nat} (study : SameStudy start server)
    (admitted : Admitted server m fieldId) :
    IsMessage start fieldId' clientRank simuId timeStep (.data now m reply) ↔
      (fieldId' = fieldId ∧ clientRank = m.clientRank) ∧
        (simuId = m.simuId ∧ timeStep = m.timeStamp.toNat) := by
  obtain ⟨valid, _, known⟩ := admitted
  rw [getFieldId_sameStudy study] at known
  simp only [IsMessage, known, Option.some.injEq]
  constructor
  · intro message
    obtain ⟨rfl, rfl, rfl, stamp⟩ := message
    exact ⟨⟨rfl, rfl⟩, rfl, by omega⟩
  · intro message
    obtain ⟨⟨rfl, rfl⟩, rfl, rfl⟩ := message
    exact ⟨rfl, rfl, rfl, by omega⟩

theorem bitsReceived_freshServer (options : Options D) (commData : CommData)
    (names : List String) :
    BitsReceived (freshServer options commData names) []
      (freshServer options commData names) := by
  intro fieldId clientRank simuId timeStep _
  constructor
  · intro received
    obtain ⟨event, member, _⟩ := received
    cases member
  · intro set
    obtain ⟨data, present, set⟩ := set
    rw [entryOf_freshServer] at present
    split at present
    · cases present
      rw [bitOf_emptyData] at set
      cases set
    · cases present

variable [Zero D] [Add D] [Sub D] [Mul D] [Div D] [NatCast D] [IntCast D]
  [Pow D ℕ] [LT D] [DecidableLT D] [LE D] [DecidableLE D] [Libm D]

theorem bitsReceived_step {restore : Restore D} {nbSimu : Nat} {start server server' : Server D}
    {past : List (Event D)} {event : Event D} (study : SameStudy start server)
    (ready : Ready nbSimu server) (bits : BitsReceived start past server)
    (taken : step restore server event = some server') :
    BitsReceived start (past ++ [event]) server' := by
  intro fieldId' clientRank' simuId timeStep valid
  rw [received_concat, bits fieldId' clientRank' simuId timeStep valid]
  have steps := nbTimeSteps_eq study
  cases event with
  | data now m reply =>
      rcases dataMessage_cases taken with ⟨rfl, skipped⟩ | ⟨fieldId, admitted, simu, data, loaded,
        updated, status, accepted⟩
      · have ignored :
            ¬ IsMessage start fieldId' clientRank' simuId timeStep (.data now m reply) := by
          intro message
          obtain ⟨known, _, _, stamp⟩ := message
          rw [← getFieldId_sameStudy study] at known
          exact skipped fieldId' ⟨by omega, by omega, known⟩
        exact or_iff_left ignored
      · obtain ⟨_, _, set⟩ := accepted_bits ready admitted accepted
        rw [isMessage_admitted study admitted, accepted.fields]
        by_cases here : fieldId' = fieldId ∧ clientRank' = m.clientRank
        · obtain ⟨rfl, rfl⟩ := here
          simp only [accepted.entry, entryOf_setEntry_same accepted.entry, Option.some.injEq,
            exists_eq_left', set, and_self, true_and, Bool.or_eq_true, decide_eq_true_eq]
          exact or_comm
        · simp only [here, false_and, or_false, entryOf_setEntry_other here]
  | launcher msg =>
      obtain ⟨fields, _⟩ := textMessage_parts taken
      simp only [IsMessage, or_false, fields]
  | timeouts now =>
      cases taken
      obtain ⟨fields, _⟩ := timeoutRound_parts server now
      simp only [IsMessage, or_false, fields]

/-- In every state a first start reaches, the bits are exactly the messages received. -/
theorem bitsReceived_run {restore : Restore D} (options : Options D) (commData : CommData)
    (names : List String) {events : List (Event D)} {server : Server D}
    (reached : run (step restore) (freshServer options commData names) events = some server) :
    BitsReceived (freshServer options commData names) events server := by
  have preserved (past : List (Event D)) (s : Server D) (e : Event D) (s' : Server D)
      (inv : SameStudy (freshServer options commData names) s ∧
        Ready options.samplingSize.toNat s ∧
        BitsReceived (freshServer options commData names) past s)
      (taken : step restore s e = some s') :
      SameStudy (freshServer options commData names) s' ∧
        Ready options.samplingSize.toNat s' ∧
        BitsReceived (freshServer options commData names) (past ++ [e]) s' := by
    obtain ⟨study, ready, bits⟩ := inv
    exact ⟨sameStudy_trans study (step_sameStudy taken), ready_step ready taken,
      bitsReceived_step study ready bits taken⟩
  exact (run_history_invariant preserved ⟨sameStudy_refl _, ready_freshServer _ _ _,
    bitsReceived_freshServer _ _ _⟩ reached).2.2

end Steps

end Melissa
