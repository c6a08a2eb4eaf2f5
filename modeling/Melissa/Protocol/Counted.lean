import Melissa.Base.Reports
import Melissa.Protocol.System
import Melissa.Server.Statuses

/-! Rank 0 of the server between its statuses, what it tells the launcher of them and what the
launcher makes of that. -/

namespace Melissa

open Reports

section Reports

/-- The statuses that are on their way to the messenger. -/
def reports (packets : List Packet) : List (Nat × Int) :=
  packets.filterMap fun
    | .notice (.simuStatus simuId status) => some (simuId, (status : Int))
    | _ => none

theorem reports_append (front back : List Packet) :
    reports (front ++ back) = reports front ++ reports back := List.filterMap_append

/-- No status is on its way without one of its notices. -/
theorem last_reports_none {packets : List Packet} {simuId : Nat}
    (silent : ∀ status, .notice (.simuStatus simuId status) ∉ packets) :
    last (reports packets) simuId = none := by
  induction packets with
  | nil => rfl
  | cons packet packets ih =>
      have rest := ih fun status sent => silent status (List.mem_cons_of_mem _ sent)
      by_cases told : ∃ simuId' status, packet = .notice (.simuStatus simuId' status)
      · obtain ⟨simuId', status, rfl⟩ := told
        have other : simuId' ≠ simuId := by
          rintro rfl
          exact silent status List.mem_cons_self
        change last ((simuId', (status : Int)) :: reports packets) simuId = none
        rw [last, rest, if_neg other]
        rfl
      · have nothing : reports (packet :: packets) = reports packets := by
          apply List.filterMap_cons_none
          split
          · exact absurd ⟨_, _, rfl⟩ told
          · rfl
        rw [nothing]
        exact rest

theorem reports_pushed_eq_nil {notices : List Notice}
    (none_sent : ∀ simuId status, .simuStatus simuId status ∉ notices) :
    reports (pushed notices) = [] := by
  rw [reports, List.filterMap_eq_nil_iff]
  intro packet sent
  obtain ⟨notice, inside, made⟩ := List.mem_filterMap.mp sent
  cases notice with
  | simuInfo simuId => cases made
  | simuStatus simuId status => exact absurd inside (none_sent simuId status)
  | timeout simuId =>
      cases made
      rfl
  | alive =>
      cases made
      rfl

variable {D : Type}

theorem reports_account (simu : Simulation D) (m : SimuData D) (status : Nat) :
    reports (pushed (accountOf simu m status)) =
      if simu.status ≠ status then [(m.simuId, (status : Int))] else [] := by
  unfold accountOf
  split
  · split
    · rfl
    · rfl
  · split
    · rfl
    · rfl

end Reports

section Passes

variable {D : Type}

/-- What a pass does to the statuses, with what it tells of them. -/
inductive StatusPass (server server' : Server D) : Event D → List (Nat × Int) → Prop where
  | quiet {event : Event D} (noDrop : ∀ simuId jobId, event ≠ .launcher (.drop simuId jobId))
      (kept : ∀ simuId, 2 ≤ simuStatus server simuId →
        simuStatus server' simuId = simuStatus server simuId) :
      StatusPass server server' event []
  | data {now : ℚ} {m : SimuData D} {reply : Job D} {simu : Simulation D} {status : Nat}
      (present : server.simulations[m.simuId]? = some simu)
      (set : statuses server' = (statuses server).set m.simuId status) :
      StatusPass server server' (.data now m reply)
        (if simu.status ≠ status then [(m.simuId, (status : Int))] else [])

variable [Zero D] [Add D] [Sub D] [Mul D] [Div D] [NatCast D] [IntCast D]
  [Pow D ℕ] [LT D] [DecidableLT D] [LE D] [DecidableLE D] [Libm D]

theorem pass_of_step {restore : Restore D} {server server' : Server D} {event : Event D}
    (rank : server.commData.rank = 0) (taken : step restore server event = some server') :
    ∃ notices, server'.outbox = server.outbox ++ notices ∧
      StatusPass server server' event (reports (pushed notices)) := by
  cases event with
  | data now m reply =>
      rcases dataMessage_cases taken with ⟨rfl, _⟩ | ⟨fieldId, admitted, simu, data, loaded,
        updated, status, accepted⟩
      · refine ⟨[], (List.append_nil _).symm, .quiet ?_ fun _ _ => rfl⟩
        intro simuId jobId same
        cases same
      · have outbox := outbox_acceptMessage rank ((dataMessage_admitted admitted).symm.trans taken)
          accepted
        refine ⟨_, outbox, ?_⟩
        rw [reports_account]
        exact .data accepted.simulation accepted.statuses
  | launcher msg =>
      refine ⟨[], by rw [outbox_textMessage taken, List.append_nil], ?_⟩
      obtain ⟨noDrop, same, _⟩ := textMessage_statuses taken
      refine .quiet ?_ ?_
      · intro simuId jobId dropped
        cases dropped
        exact noDrop simuId jobId rfl
      · intro simuId _
        rw [simuStatus, same, simuStatus]
  | timeouts now =>
      cases taken
      obtain ⟨notices, outbox, silent⟩ := outbox_timeouts server now
      refine ⟨notices, outbox, ?_⟩
      rw [reports_pushed_eq_nil silent]
      refine .quiet ?_ fun simuId finished => simuStatus_timeouts now finished
      intro simuId jobId same
      cases same

end Passes

section Accounted

variable {D : Type}

/-- The launcher holds a simulation finished only if the server does, or if its DROP is on its
way. -/
def Accounted (nbSimu : Nat) (server : Server D) (toServer : List (LauncherMessage D))
    (simuId : Nat) (status : Int) : Prop :=
  simuId < nbSimu → status = finished →
    2 ≤ simuStatus server simuId ∨ ∃ jobId, .drop simuId jobId ∈ toServer

variable {server server' : Server D} {nbSimu : Nat} {toServer toServer' : List (LauncherMessage D)}
  {told queue : List (Nat × Int)} {belief : Nat → Int} {event : Event D}

/-- What is settled of the other simulations stays so. -/
theorem settled_set {simuId status : Nat} {simu : Simulation D}
    (present : server.simulations[simuId]? = some simu)
    (set : statuses server' = (statuses server).set simuId status)
    (rest : ∀ simuId jobId, .drop simuId jobId ∈ toServer → .drop simuId jobId ∈ toServer')
    {other : Nat} {held : Int} (apart : other ≠ simuId)
    (settled : Accounted nbSimu server toServer other held) :
    Accounted nbSimu server' toServer' other held := by
  intro inside ended
  rcases settled inside ended with large | ⟨jobId, sent⟩
  · rw [simuStatus_set present set, if_neg apart]
    exact Or.inl large
  · exact Or.inr ⟨jobId, rest other jobId sent⟩

/-- A pass takes at most its own message from what is on its way to the server. -/
theorem pass_settled (pass : StatusPass server server' event told)
    (justified : Justified (Accounted nbSimu server toServer) queue belief)
    (rest : ∀ simuId jobId, .drop simuId jobId ∈ toServer →
      event = .launcher (.drop simuId jobId) ∨ .drop simuId jobId ∈ toServer') :
    Justified (Accounted nbSimu server' toServer') (queue ++ told) belief := by
  have left (noDrop : ∀ simuId jobId, event ≠ .launcher (.drop simuId jobId)) (simuId : Nat)
      (jobId : String) (sent : .drop simuId jobId ∈ toServer) : .drop simuId jobId ∈ toServer' :=
    (rest simuId jobId sent).resolve_left (noDrop simuId jobId)
  cases pass with
  | quiet noDrop kept =>
      rw [List.append_nil]
      refine justified.mono ?_
      intro simuId status settled inside ended
      rcases settled inside ended with large | ⟨jobId, sent⟩
      · rw [kept simuId large]
        exact Or.inl large
      · exact Or.inr ⟨jobId, left noDrop simuId jobId sent⟩
  | @data now m reply simu status present set =>
      have others := left fun simuId jobId same => by cases same
      split
      · refine justified.report ?_ ?_
        · intro other held apart settled
          exact settled_set present set others apart settled
        · intro inside ended
          have two : status = 2 := Int.ofNat.inj ended
          rw [simuStatus_set present set, if_pos rfl]
          exact Or.inl two.ge
      · rename_i unchanged
        have same : simu.status = status := not_not.mp unchanged
        rw [List.append_nil]
        refine justified.mono ?_
        intro other held settled
        by_cases own : other = m.simuId
        · subst own
          intro inside ended
          rcases settled inside ended with large | ⟨jobId, sent⟩
          · rw [simuStatus_of_present present, same] at large
            rw [simuStatus_set present set, if_pos rfl]
            exact Or.inl large
          · exact Or.inr ⟨jobId, others _ jobId sent⟩
        · exact settled_set present set others own settled

end Accounted

end Melissa
