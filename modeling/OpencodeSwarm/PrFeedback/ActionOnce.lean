/-
  OpencodeSwarm.PrFeedback.ActionOnce

  An action is performed at most once, as long as no final admission lets a call
  in whose digest the state it re-reads has already processed.  A report of the
  performer stays accounted for: by the digest, by the reservation of its call, or
  by the stop of its session.
-/
import OpencodeSwarm.PrFeedback.LoopRun

namespace OpencodeSwarm

open Js Transition

/-! ## Reports -/

/-- A report of the performer: the session, and the action behind the digest. -/
def LoopRecord.report : LoopRecord → Option (JsString × FeedbackAction)
  | .performed sessionID action _ => some (sessionID, action)
  | _ => none

/-- For every digest of a session the performer reported `performed` at most once. -/
def LoopWorld.PerformedAtMostOnce (s : LoopWorld) : Prop :=
  ∀ sessionID action, (s.log.filterMap LoopRecord.report).count (sessionID, action) ≤ 1

/-- The final admission of the step finds a digest that is not processed yet. -/
def AdmitsUnprocessed (host : LoopHost) (s : LoopWorld) : LoopLabel → Prop
  | .step id _ => ∀ worker call, s.workers id = some worker → worker.phase = .approved call →
      call.action.digest host.sha256
        ∉ (s.state.record (call.event.pullRequest worker.sessionID)).processedDigests
  | _ => True

/-- The pull request of an action of a session. -/
def FeedbackAction.pullRequest (action : FeedbackAction) (sessionID : JsString) :
    LoopPullRequest where
  sessionID := sessionID
  repoFullName := action.repoFullName
  prNumber := action.prNumber

theorem pullRequest_action (call : LoopCall) (sessionID : JsString) :
    call.action.pullRequest sessionID = call.event.pullRequest sessionID := rfl

/-- What keeps the action of a report of `id` from being performed again. -/
inductive Accounted (host : LoopHost) (state : LoopState) (sessionID : JsString)
    (action : FeedbackAction) (id : JsString) : Prop where
  | processed (h : action.digest host.sha256
      ∈ (state.record (action.pullRequest sessionID)).processedDigests)
  | reserved (r : InFlightClaim)
      (h : (state.record (action.pullRequest sessionID)).inFlight = some r)
      (hown : r.workflowInstanceId = id) (hstarted : r.actionStartedAt.isSome)
  | stopped (hcancel : state.cancellation sessionID ≠ none)
      (hnone : (state.record (action.pullRequest sessionID)).inFlight = none)

/-- What holds of the reports in every reachable world. -/
structure OnceInv (host : LoopHost) (limits : LoopLimits) (s : LoopWorld) : Prop where
  unreported : ∀ id worker, s.workers id = some worker → worker.phase.beforeReport = true →
    ∀ sessionID action, .performed sessionID action id ∉ s.log
  reporter : ∀ sessionID action id, .performed sessionID action id ∈ s.log →
    ∃ worker, s.workers id = some worker ∧ worker.sessionID = sessionID
      ∧ ∀ call outcome, worker.phase = .acted call outcome → call.action = action
  holder : ∀ id worker call, s.workers id = some worker → worker.phase.holding = some call →
    ∀ r, (s.state.record (call.event.pullRequest worker.sessionID)).inFlight = some r →
      r.workflowInstanceId = id → call.action.digest host.sha256
        ∉ (s.state.record (call.event.pullRequest worker.sessionID)).processedDigests
  accounted : ∀ sessionID action id, .performed sessionID action id ∈ s.log →
    action.pullRequest sessionID ∈ limits.pullRequests
      ∧ Accounted host s.state sessionID action id
  once : (s.log.filterMap LoopRecord.report).Nodup

section Once

variable {host : LoopHost} {limits : LoopLimits} {stopped : List JsString} {s t : LoopWorld}

/-! ## A step of a call -/

variable {env : LoopEnv} {id : JsString} {worker : LoopWorker} {e : LoopEffect} {state : LoopState}

theorem CallMove.cancellation (hmove : CallMove host env id worker state e) (sessionID : JsString) :
    e.state.cancellation sessionID = state.cancellation sessionID := by
  unfold LoopState.cancellation
  rw [hmove.document.sessionTerminals]

variable {pr : LoopPullRequest} {workers : JsString → Option LoopWorker} {p : CorrelationState}
  {digest : JsString}

theorem processedDigests_record_eq (h : RecordOk limits workers pr p)
    (hdigest : digest ∈ limits.digests pr) (hnew : digest ∉ p.processedDigests) :
    (p.recordProcessedDigest digest).processedDigests = p.processedDigests ++ [digest] := by
  have hlength : (p.processedDigests ++ [digest]).length ≤ MAX_PROCESSED_DIGESTS := by
    refine le_trans ?_ (limits.digests_le pr)
    have hnodup : (p.processedDigests ++ [digest]).Nodup :=
      h.digests_nodup.append (List.nodup_singleton _) (List.disjoint_singleton.mpr hnew)
    refine hnodup.length_le_of_subset fun other hother => ?_
    rcases List.mem_append.mp hother with hold | hlast
    · exact h.digests_mem other hold
    · rw [List.mem_singleton.mp hlast]
      exact hdigest
  rw [processedDigests_record, if_neg hnew, Nat.sub_eq_zero_of_le hlength, List.drop_zero]

/-- Within the limits a settlement forgets no digest, and one of a performed action
    records its own. -/
theorem SettleMove.digests {ownerPid : Nat} {performed : Bool} {q : CorrelationState}
    (hmove : SettleMove id ownerPid performed digest p q) (h : RecordOk limits workers pr p)
    (hdigest : performed = true → digest ∈ limits.digests pr) :
    (∀ other ∈ p.processedDigests, other ∈ q.processedDigests)
      ∧ (performed = true → digest ∈ q.processedDigests) := by
  rw [hmove.processedDigests]
  cases performed with
  | false => exact ⟨fun _ h => h, fun h => nomatch h⟩
  | true =>
    by_cases hknown : digest ∈ p.processedDigests
    · rw [processedDigests_record, if_pos hknown]
      exact ⟨fun _ h => h, fun _ => hknown⟩
    · rw [processedDigests_record_eq h (hdigest rfl) hknown]
      exact ⟨fun other hother => List.mem_append_left _ hother,
        fun _ => List.mem_append_right _ (List.mem_singleton_self digest)⟩

theorem CallMove.digests_mono (h : LoopInv host limits stopped s) (hkeys : limits.KeysDistinct)
    (hworker : s.workers id = some worker) (hmove : CallMove host env id worker s.state e)
    (hpr : pr ∈ limits.pullRequests) : ∀ digest ∈ (s.state.record pr).processedDigests,
      digest ∈ (e.state.record pr).processedDigests := by
  have hok := h.workers id worker hworker
  rcases hmove.record_cases hkeys hok hpr with hsame | ⟨-, hchange⟩
  · rw [hsame]
    exact fun _ h => h
  rcases hchange.books with books | ⟨call, outcome, hcall, hcallPr, hmove⟩
  · rw [books.processedDigests]
    exact fun _ h => h
  · exact (hmove.digests (h.records pr hpr) (hcallPr ▸ hok.acted call outcome hcall)).1

variable {sessionID : JsString} {reporter : JsString} {action : FeedbackAction}

theorem Accounted.step (h : LoopInv host limits stopped s) (honce : OnceInv host limits s)
    (hkeys : limits.KeysDistinct) (hworker : s.workers id = some worker)
    (hmove : CallMove host env id worker s.state e)
    (hreport : .performed sessionID action reporter ∈ s.log)
    (hpr : action.pullRequest sessionID ∈ limits.pullRequests)
    (haccounted : Accounted host s.state sessionID action reporter) :
    Accounted host e.state sessionID action reporter := by
  have hok := h.workers id worker hworker
  have hstopped : s.state.cancellation sessionID ≠ none →
      (e.state.record (action.pullRequest sessionID)).inFlight = none →
      Accounted host e.state sessionID action reporter := by
    intro hcancel hnone
    refine .stopped ?_ hnone
    rw [hmove.cancellation]
    exact hcancel
  rcases hmove.record_cases hkeys hok hpr with hsame | ⟨hsession, hchange⟩
  · cases haccounted with
    | processed hdigest => exact .processed (by rw [hsame]; exact hdigest)
    | reserved r hr hown hstarted => exact .reserved r (by rw [hsame]; exact hr) hown hstarted
    | stopped hcancel hnone => exact hstopped hcancel (by rw [hsame]; exact hnone)
  cases haccounted with
  | processed hdigest =>
    exact .processed (hmove.digests_mono h hkeys hworker hpr _ hdigest)
  | reserved r hr hown hstarted =>
    by_cases hid : reporter = id
    · subst hid
      -- a call that reported only settles what it reserved
      have hlate : worker.phase.beforeReport = true → False := fun hearly =>
        honce.unreported reporter worker hworker hearly sessionID action hreport
      cases hchange with
      | moved hmove =>
        cases hmove with
        | kept _ hsame => exact .reserved r (hsame.trans hr) hown hstarted
        | dropped _ _ hunstarted =>
          rw [hunstarted r hr] at hstarted
          cases hstarted
      | cleared _ _ _ hcall _ | reserved _ hcall _ _ _ _ _ | marked _ hcall _ =>
        exact (hlate (by rw [hcall]; rfl)).elim
      | settled call outcome hcall hcallPr hmove =>
        obtain ⟨reporting, hreporting, -, hacted⟩ := honce.reporter _ _ _ hreport
        cases hworker.symm.trans hreporting
        have hperformed : outcome.performed = true := by
          cases hperf : outcome.performed with
          | true => rfl
          | false => exact (hlate (by rw [hcall, LoopPhase.beforeReport, hperf]; rfl)).elim
        refine .processed ?_
        cases hacted call outcome hcall
        exact (hmove.digests (h.records _ hpr) (hcallPr ▸ hok.acted call outcome hcall)).2
          hperformed
    · exact .reserved r (hmove.keeps_started h hkeys hworker hpr hr hstarted
        (by rw [hown]; exact hid)).1 hown hstarted
  | stopped hcancel hnone =>
    cases hchange with
    | moved hmove =>
      cases hmove with
      | kept _ hsame => exact hstopped hcancel (hsame.trans hnone)
      | dropped _ hgone _ => exact hstopped hcancel hgone
    | cleared _ _ _ _ hmove | settled _ _ _ _ hmove => exact hstopped hcancel hmove.inFlight
    | reserved _ _ _ _ _ _ hfree =>
      rw [hsession] at hfree
      exact absurd hfree hcancel
    | marked _ _ hmove =>
      obtain ⟨r, hr, -⟩ := hmove.reservation
      rw [hnone] at hr
      cases hr

/-- The log of a step: nothing, an action start of a session that is not cancelled, or the
    report of a performer. -/
theorem CallMove.log_cases (hmove : CallMove host env id worker state e) : e.log = []
      ∨ (e.log = [.started worker.sessionID id] ∧ state.cancellation worker.sessionID = none)
      ∨ ∃ call attempt, worker.phase = .performing call attempt ∧ e.state = state
          ∧ e.worker.phase = .acted call env.performer ∧ env.performer.performed = true
          ∧ e.log = [.performed worker.sessionID call.action id] := by
  cases hmove with
  | quiet _ hlog _ | cleared _ _ _ _ _ _ _ hlog _ | reserved _ _ _ _ _ _ _ _ _ hlog _
  | begins _ _ _ _ hlog _ | settled _ _ _ _ _ _ hlog _ => exact Or.inl hlog
  | moved _ _ _ _ _ hlog _ => exact hlog.imp (fun h => h) Or.inl
  | marked _ _ _ _ hcancel _ hlog _ => exact Or.inr (Or.inl ⟨hlog, hcancel⟩)
  | performs call attempt hcall hstate hlog hphase =>
    split at hlog
    · rename_i hperformed
      rcases hphase with hacted | ⟨hfailed, -⟩
      · exact Or.inr (Or.inr ⟨call, attempt, hcall, hstate, hacted, hperformed, hlog⟩)
      · rw [hperformed] at hfailed
        cases hfailed
    · exact Or.inl hlog

theorem CallMove.reports (hmove : CallMove host env id worker state e)
    (hreport : .performed sessionID action reporter ∈ e.log) :
    ∃ call attempt, worker.phase = .performing call attempt ∧ e.state = state
      ∧ e.worker.phase = .acted call env.performer ∧ env.performer.performed = true
      ∧ e.log = [.performed worker.sessionID call.action id]
      ∧ sessionID = worker.sessionID ∧ action = call.action ∧ reporter = id := by
  rcases hmove.log_cases with hlog | ⟨hlog, -⟩ | ⟨call, attempt, hcall, hstate, hacted, hdone, hlog⟩
  · rw [hlog] at hreport
    cases hreport
  · rw [hlog] at hreport
    cases List.mem_singleton.mp hreport
  · rw [hlog] at hreport
    cases List.mem_singleton.mp hreport
    exact ⟨call, attempt, hcall, hstate, hacted, hdone, hlog, rfl, rfl, rfl⟩

/-- A reservation behind a step was there, with the digests next to it, or the call has
    just made it. -/
theorem CallMove.reservation_cases (h : LoopInv host limits stopped s) (hkeys : limits.KeysDistinct)
    (hworker : s.workers id = some worker) (hmove : CallMove host env id worker s.state e)
    (hpr : pr ∈ limits.pullRequests) {r : InFlightClaim}
    (hr : (e.state.record pr).inFlight = some r) :
    (e.state.record pr).processedDigests = (s.state.record pr).processedDigests
      ∧ ((∃ earlier, (s.state.record pr).inFlight = some earlier
            ∧ earlier.workflowInstanceId = r.workflowInstanceId)
        ∨ (r.workflowInstanceId = id ∧ ∃ call, worker.phase = .approved call)) := by
  rcases hmove.record_cases hkeys (h.workers id worker hworker) hpr with hsame | ⟨-, hchange⟩
  · rw [hsame] at hr ⊢
    exact ⟨rfl, Or.inl ⟨r, hr, rfl⟩⟩
  cases hchange with
  | moved hmove =>
    cases hmove with
    | kept books hsame => exact ⟨books.processedDigests, Or.inl ⟨r, hsame ▸ hr, rfl⟩⟩
    | dropped _ hgone _ =>
      rw [hgone] at hr
      cases hr
  | cleared _ _ _ _ hmove | settled _ _ _ _ hmove =>
    rw [hmove.inFlight] at hr
    cases hr
  | reserved call hcall _ hmove _ _ _ =>
    rw [hmove.inFlight] at hr
    cases hr
    exact ⟨hmove.books.processedDigests, Or.inr ⟨rfl, call, hcall⟩⟩
  | marked _ _ hmove =>
    obtain ⟨earlier, hearlier, -, -, hinFlight⟩ := hmove.reservation
    rw [hinFlight] at hr
    cases hr
    exact ⟨hmove.books.processedDigests, Or.inl ⟨earlier, hearlier, rfl⟩⟩

variable {call : LoopCall}

theorem LoopPhase.event_of_holding {phase : LoopPhase} (h : phase.holding = some call) :
    phase.event = some call.event := by
  cases phase <;> cases h <;> rfl

theorem action_eq {earlier : LoopCall} (hevent : earlier.event = call.event)
    (hhead : earlier.head = call.head) : earlier.action = call.action := by
  simp [LoopCall.action, LoopCall.actionClass, hevent, hhead]

theorem after_worker_cases {other : JsString} {w : LoopWorker}
    (hw : (s.after id e).workers other = some w) :
    other = id ∧ w = e.worker ∨ other ≠ id ∧ s.workers other = some w := by
  by_cases hid : other = id
  · have hself : (s.after id e).workers id = some e.worker := Function.update_self ..
    exact Or.inl ⟨hid, (Option.some.inj (hself.symm.trans (hid ▸ hw))).symm⟩
  · exact Or.inr ⟨hid, (Function.update_of_ne hid _ _).symm.trans hw⟩

section Step

variable (honce : OnceInv host limits s) (h : LoopInv host limits stopped s)
  (hkeys : limits.KeysDistinct) (hworker : s.workers id = some worker)
  (hcrashed : worker.crashed = false) (hcall : CallStep host limits env id worker s.state e)

include honce hworker

section Report

include h hcrashed

/-- The own reservation leaves nothing that could account for an earlier report. -/
theorem OnceInv.performing_unreported {attempt : Nat}
    (hphase : worker.phase = .performing call attempt) :
    .performed worker.sessionID call.action reporter ∉ s.log := by
  intro hreport
  have hacting : worker.phase.acting = some call := by rw [hphase]; rfl
  have hholding : worker.phase.holding = some call := by rw [hphase]; rfl
  have hearly : worker.phase.beforeReport = true := by rw [hphase]; rfl
  obtain ⟨r, hr, hown, -⟩ := (h.workers id worker hworker).acting hcrashed call hacting
  obtain ⟨-, haccounted⟩ := honce.accounted _ _ _ hreport
  cases haccounted with
  | processed hdigest => exact honce.holder id worker call hworker hholding r hr hown hdigest
  | reserved other hother hfirst _ =>
    cases (show _ = some other from hother).symm.trans hr
    rw [hown] at hfirst
    subst hfirst
    exact honce.unreported id worker hworker hearly _ _ hreport
  | stopped _ hnone =>
    rw [pullRequest_action, hr] at hnone
    cases hnone

include hcall

theorem OnceInv.once_step : ((s.after id e).log.filterMap LoopRecord.report).Nodup := by
  obtain ⟨-, -, hmove⟩ := hcall
  show ((s.log ++ e.log).filterMap LoopRecord.report).Nodup
  rw [List.filterMap_append]
  by_cases hnew : ∃ sessionID action reporter,
      LoopRecord.performed sessionID action reporter ∈ e.log
  · obtain ⟨sessionID, action, reporter, hnew⟩ := hnew
    obtain ⟨call, attempt, hphase, -, -, -, hlog, -⟩ := hmove.reports hnew
    rw [hlog, show [LoopRecord.performed worker.sessionID call.action id].filterMap
      LoopRecord.report = [(worker.sessionID, call.action)] from rfl]
    refine honce.once.append (List.nodup_singleton _) (List.disjoint_singleton.mpr ?_)
    intro hearlier
    obtain ⟨record, hrecord, hreport⟩ := List.mem_filterMap.mp hearlier
    cases record with
    | performed sessionID action first =>
      cases hreport
      exact honce.performing_unreported h hworker hcrashed hphase hrecord
    | _ => cases hreport
  · have hlog : e.log.filterMap LoopRecord.report = [] := by
      rw [List.filterMap_eq_nil_iff]
      intro record hrecord
      cases record with
      | performed sessionID action reporter =>
        exact (hnew ⟨sessionID, action, reporter, hrecord⟩).elim
      | _ => rfl
    rw [hlog, List.append_nil]
    exact honce.once

end Report

include hcall

theorem OnceInv.unreported_step {other : JsString} {w : LoopWorker}
    (hw : (s.after id e).workers other = some w) (hearly : w.phase.beforeReport = true) :
    .performed sessionID action other ∉ (s.after id e).log := by
  obtain ⟨-, hknows, hmove⟩ := hcall
  intro hreport
  rcases after_worker_cases hw with ⟨rfl, rfl⟩ | ⟨hid, hw⟩
  · rcases List.mem_append.mp hreport with hold | hnew
    · exact honce.unreported other worker hworker (hknows.order hearly) sessionID action hold
    · obtain ⟨call, -, -, -, hacted, hperformed, -⟩ := hmove.reports hnew
      rw [hacted, LoopPhase.beforeReport, hperformed] at hearly
      cases hearly
  · rcases List.mem_append.mp hreport with hold | hnew
    · exact honce.unreported other w hw hearly sessionID action hold
    · obtain ⟨-, -, -, -, -, -, -, -, -, hreporter⟩ := hmove.reports hnew
      exact hid hreporter

theorem OnceInv.reporter_step (hreport : .performed sessionID action reporter ∈ (s.after id e).log) :
    ∃ w, (s.after id e).workers reporter = some w ∧ w.sessionID = sessionID
      ∧ ∀ call outcome, w.phase = .acted call outcome → call.action = action := by
  obtain ⟨hsame, -, hmove⟩ := hcall
  have hself : (s.after id e).workers id = some e.worker := Function.update_self ..
  rcases List.mem_append.mp hreport with hold | hnew
  · obtain ⟨w, hw, hsession, hacted⟩ := honce.reporter sessionID action reporter hold
    by_cases hid : reporter = id
    · subst hid
      cases hworker.symm.trans hw
      refine ⟨e.worker, hself, hsame.sessionID.trans hsession, fun call outcome hphase => ?_⟩
      obtain ⟨attempt, hearlier, -⟩ := hmove.acted_cases hphase
      have hearly : worker.phase.beforeReport = true := by rw [hearlier]; rfl
      exact (honce.unreported reporter worker hworker hearly sessionID action hold).elim
    · exact ⟨w, (Function.update_of_ne hid _ _).trans hw, hsession, hacted⟩
  · obtain ⟨call, -, -, -, hphase, -, -, rfl, rfl, rfl⟩ := hmove.reports hnew
    refine ⟨e.worker, hself, hsame.sessionID, fun other outcome hother => ?_⟩
    rw [hphase] at hother
    cases hother
    rfl

include h hkeys

/-- A worker that holds a reservation got it for a digest that was not processed. -/
theorem OnceInv.holder_step (hguard : AdmitsUnprocessed host s (.step id env)) {other : JsString}
    {w : LoopWorker} (hw : (s.after id e).workers other = some w)
    (hholding : w.phase.holding = some call) {r : InFlightClaim}
    (hr : (e.state.record (call.event.pullRequest w.sessionID)).inFlight = some r)
    (hown : r.workflowInstanceId = other) : call.action.digest host.sha256
      ∉ (e.state.record (call.event.pullRequest w.sessionID)).processedDigests := by
  obtain ⟨hsame, hknows, hmove⟩ := hcall
  rcases after_worker_cases hw with ⟨rfl, rfl⟩ | ⟨hid, hw⟩
  · obtain ⟨earlier, hearlier, hevent, hhead⟩ := hknows.holding call hholding
    have hworkerEvent : worker.phase.event = some call.event := by
      rw [← hevent]
      rcases hearlier with hphase | hphase
      · rw [hphase]
        rfl
      · exact LoopPhase.event_of_holding hphase
    have hpr := (h.workers other worker hworker).event call.event hworkerEvent
    rw [hsame.sessionID] at hr ⊢
    obtain ⟨hdigests, hcases⟩ := hmove.reservation_cases h hkeys hworker hpr hr
    rw [hdigests, ← action_eq hevent hhead]
    rcases hearlier with hphase | hphase
    · have hfree := hguard worker earlier hworker hphase
      rw [hevent] at hfree
      exact hfree
    · rcases hcases with ⟨before, hbefore, hid⟩ | ⟨-, approved, happroved⟩
      · have hfree := honce.holder other worker earlier hworker hphase before
          (hevent.symm ▸ hbefore) (hid.trans hown)
        rw [hevent] at hfree
        exact hfree
      · rw [happroved] at hphase
        cases hphase
  · have hpr := (h.workers other w hw).event _ (LoopPhase.event_of_holding hholding)
    obtain ⟨hdigests, hcases⟩ := hmove.reservation_cases h hkeys hworker hpr hr
    rw [hdigests]
    rcases hcases with ⟨before, hbefore, hbeforeId⟩ | ⟨hmine, -⟩
    · exact honce.holder other w call hw hholding before hbefore (hbeforeId.trans hown)
    · exact absurd (hown.symm.trans hmine) hid

include hcrashed

theorem OnceInv.accounted_step
    (hreport : .performed sessionID action reporter ∈ (s.after id e).log) :
    action.pullRequest sessionID ∈ limits.pullRequests
      ∧ Accounted host e.state sessionID action reporter := by
  obtain ⟨-, -, hmove⟩ := hcall
  have hok := h.workers id worker hworker
  rcases List.mem_append.mp hreport with hold | hnew
  · obtain ⟨hpr, haccounted⟩ := honce.accounted sessionID action reporter hold
    exact ⟨hpr, haccounted.step h honce hkeys hworker hmove hold hpr⟩
  · obtain ⟨call, attempt, hphase, hstate, -, -, -, rfl, rfl, rfl⟩ := hmove.reports hnew
    have hacting : worker.phase.acting = some call := by rw [hphase]; rfl
    obtain ⟨r, hr, hown, hstarted⟩ := hok.acting hcrashed call hacting
    refine ⟨hok.event call.event (LoopPhase.event_of_acting hacting), .reserved r ?_ hown hstarted⟩
    rw [hstate, pullRequest_action]
    exact hr

end Step

theorem OnceInv.step (honce : OnceInv host limits s) (h : LoopInv host limits stopped s)
    (hkeys : limits.KeysDistinct) (hworker : s.workers id = some worker)
    (hcrashed : worker.crashed = false) (hguard : AdmitsUnprocessed host s (.step id env))
    (hcall : CallStep host limits env id worker s.state e) :
    OnceInv host limits (s.after id e) where
  unreported _ _ hw hearly _ _ := honce.unreported_step hworker hcall hw hearly
  reporter _ _ _ hreport := honce.reporter_step hworker hcall hreport
  holder _ _ _ hw hholding _ hr hown :=
    honce.holder_step h hkeys hworker hcall hguard hw hholding hr hown
  accounted _ _ _ hreport := honce.accounted_step h hkeys hworker hcrashed hcall hreport
  once := honce.once_step h hworker hcrashed hcall

/-! ## The other steps -/

/-- What a stop leaves of a correlation: its digests, and its reservation or none. -/
theorem cancelled_facts (isProcessAlive : Nat → Bool) (reason : JsString) (p : CorrelationState) :
    (p.cancelled isProcessAlive reason).processedDigests = p.processedDigests
      ∧ ((p.cancelled isProcessAlive reason).inFlight = p.inFlight
        ∨ (p.cancelled isProcessAlive reason).inFlight = none) := by
  constructor
  · rcases cancelled_cases isProcessAlive reason p with hsame | books
    · rw [hsame]
    · exact books.processedDigests
  · cases hr : (p.cancelled isProcessAlive reason).inFlight with
    | none => exact Or.inr rfl
    | some r => exact Or.inl (inFlight_of_cancelled hr).symm

/-- A stop cancels its session, and no session's cancellation is lost. -/
theorem cancellation_stoppedState (isProcessAlive : Nat → Bool) (sessionID reason : JsString)
    (state : LoopState) (other : JsString)
    (h : other = sessionID ∨ state.cancellation other ≠ none) :
    (stoppedState isProcessAlive sessionID reason state).cancellation other ≠ none := by
  unfold stoppedState LoopState.cancellation
  split
  · rename_i hsome
    rcases h with rfl | hother
    · exact Option.isSome_iff_ne_none.mp hsome
    · exact hother
  · rw [OrderedMap.get?_set]
    by_cases heq : other = sessionID
    · rw [if_pos heq]
      exact Option.some_ne_none _
    · rw [if_neg heq]
      exact h.resolve_left heq

theorem OnceInv.cancel (honce : OnceInv host limits s) (h : LoopInv host limits stopped s)
    (hstopped : stopped.length ≤ MAX_TRACKED_SESSIONS) {reason : JsString}
    (hmem : sessionID ∈ stopped) : OnceInv host limits (s.cancel sessionID reason env) := by
  have hreports : ∀ other action reporter,
      .performed other action reporter ∈ (s.cancel sessionID reason env).log →
      .performed other action reporter ∈ s.log := by
    intro other action reporter hreport
    rcases h.cancel_state hstopped hmem reason env with ⟨-, hlog⟩ | ⟨-, hlog⟩ <;>
      rw [hlog] at hreport
    · exact hreport
    · rcases List.mem_append.mp hreport with hold | hnew
      · exact hold
      · cases List.mem_singleton.mp hnew
  have hcount : (s.cancel sessionID reason env).log.filterMap LoopRecord.report
      = s.log.filterMap LoopRecord.report := by
    rcases h.cancel_state hstopped hmem reason env with ⟨-, hlog⟩ | ⟨-, hlog⟩ <;> rw [hlog]
    rw [List.filterMap_append]
    exact List.append_nil _
  -- digests stay, and a reservation is the one from before
  have hrecord : ∀ pr, ((s.cancel sessionID reason env).state.record pr).processedDigests
        = (s.state.record pr).processedDigests
      ∧ (((s.cancel sessionID reason env).state.record pr).inFlight
          = (s.state.record pr).inFlight
        ∨ (((s.cancel sessionID reason env).state.record pr).inFlight = none
          ∧ (s.state.record pr).sessionID = sessionID
          ∧ (s.cancel sessionID reason env).state
            = stoppedState env.isProcessAlive sessionID reason s.state)) := by
    intro pr
    rcases h.cancel_state hstopped hmem reason env with ⟨hstate, -⟩ | ⟨hstate, -⟩ <;> rw [hstate]
    · exact ⟨rfl, Or.inl rfl⟩
    rcases record_stoppedState env.isProcessAlive sessionID reason s.state pr
      with hsame | ⟨hsession, hcancelled⟩
    · rw [hsame]
      exact ⟨rfl, Or.inl rfl⟩
    · rw [hcancelled]
      obtain ⟨hdigests, hinFlight⟩ := cancelled_facts env.isProcessAlive reason (s.state.record pr)
      exact ⟨hdigests, hinFlight.imp id fun hnone => ⟨hnone, hsession, rfl⟩⟩
  have hcancellation : ∀ other, s.state.cancellation other ≠ none →
      (s.cancel sessionID reason env).state.cancellation other ≠ none := by
    intro other hother
    rcases h.cancel_state hstopped hmem reason env with ⟨hstate, -⟩ | ⟨hstate, -⟩ <;> rw [hstate]
    · exact hother
    · exact cancellation_stoppedState _ _ _ _ _ (Or.inr hother)
  refine
    { unreported := fun id worker hworker hearly other action hreport =>
        honce.unreported id worker hworker hearly other action (hreports _ _ _ hreport)
      reporter := fun other action reporter hreport =>
        honce.reporter other action reporter (hreports _ _ _ hreport)
      holder := ?_
      accounted := ?_
      once := hcount ▸ honce.once }
  · intro id worker call hworker hholding r hr hown
    obtain ⟨hdigests, hsame | ⟨hnone, -⟩⟩ := hrecord (call.event.pullRequest worker.sessionID)
    · rw [hdigests]
      exact honce.holder id worker call hworker hholding r (hsame.symm.trans hr) hown
    · rw [hnone] at hr
      cases hr
  · intro other action reporter hreport
    obtain ⟨hpr, haccounted⟩ := honce.accounted other action reporter (hreports _ _ _ hreport)
    obtain ⟨hdigests, hinFlight⟩ := hrecord (action.pullRequest other)
    refine ⟨hpr, ?_⟩
    cases haccounted with
    | processed hdigest =>
      refine .processed ?_
      rw [hdigests]
      exact hdigest
    | reserved r hr hown hstarted =>
      rcases hinFlight with hsame | ⟨hnone, hsession, hstate⟩
      · exact .reserved r (hsame.trans hr) hown hstarted
      · refine .stopped ?_ hnone
        rw [hstate]
        refine cancellation_stoppedState _ _ _ _ _ (Or.inl ?_)
        rw [← hsession]
        exact (congrArg LoopPullRequest.sessionID (h.records _ hpr).pullRequest).symm
    | stopped hcancel hnone =>
      refine .stopped (hcancellation _ hcancel) ?_
      rcases hinFlight with hsame | ⟨hgone, -⟩
      · exact hsame.trans hnone
      · exact hgone

theorem OnceInv.next (honce : OnceInv host limits s) (h : LoopInv host limits stopped s)
    (hkeys : limits.KeysDistinct) (hstopped : stopped.length ≤ MAX_TRACKED_SESSIONS)
    {a : LoopLabel} (hstep : LoopStep host s a t) (hwithin : WithinLimits host limits stopped s a)
    (hguard : AdmitsUnprocessed host s a) : OnceInv host limits t := by
  rcases loopStep_cases hstep with ⟨id, sessionID, ownerPid, pending, rfl, hnew, -, rfl⟩
    | ⟨id, env, worker, e, rfl, hworker, hcrashed, he, -, -, rfl⟩ | ⟨ownerPid, rfl, rfl⟩
    | ⟨sessionID, reason, env, rfl, -, rfl⟩ | ⟨sessionID, origin, mutation, queues, rfl, rfl⟩
  · refine
      { unreported := ?_
        reporter := ?_
        holder := ?_
        accounted := honce.accounted
        once := honce.once }
    · intro other w hw hearly session action hreport
      obtain ⟨reporting, hreporting, -⟩ := honce.reporter session action other hreport
      by_cases heq : other = id
      · subst heq
        rw [hnew] at hreporting
        cases hreporting
      · exact honce.unreported other w ((Function.update_of_ne heq _ _).symm.trans hw) hearly
          session action hreport
    · intro session action reporter hreport
      obtain ⟨reporting, hreporting, hrest⟩ := honce.reporter session action reporter hreport
      have hne : reporter ≠ id := by
        rintro rfl
        rw [hnew] at hreporting
        cases hreporting
      exact ⟨reporting, (Function.update_of_ne hne _ _).trans hreporting, hrest⟩
    · intro other w call hw hholding r hr hown
      by_cases heq : other = id
      · subst heq
        change Function.update s.workers other _ other = some w at hw
        rw [Function.update_self] at hw
        cases hw
        cases hholding
      · exact honce.holder other w call ((Function.update_of_ne heq _ _).symm.trans hw) hholding
          r hr hown
  · exact honce.step h hkeys hworker hcrashed hguard
      (callStep_step h hstopped hworker hwithin.1 he)
  · -- a crash marks calls; it moves none of them
    have hback : ∀ id w, (s.crash ownerPid).workers id = some w → ∃ worker,
        s.workers id = some worker ∧ w.phase = worker.phase ∧ w.sessionID = worker.sessionID := by
      intro id w hw
      obtain ⟨worker, hworker, rfl⟩ := Option.map_eq_some_iff.mp hw
      refine ⟨worker, hworker, ?_, ?_⟩ <;> split <;> rfl
    refine
      { unreported := ?_
        reporter := ?_
        holder := ?_
        accounted := honce.accounted
        once := honce.once }
    · intro id w hw hearly
      obtain ⟨worker, hworker, hphase, -⟩ := hback id w hw
      exact honce.unreported id worker hworker (hphase ▸ hearly)
    · intro sessionID action reporter hreport
      obtain ⟨worker, hworker, hsession, hacted⟩ := honce.reporter sessionID action reporter hreport
      refine ⟨if worker.ownerPid = ownerPid then { worker with crashed := true } else worker,
        ?_, ?_, ?_⟩
      · show (s.workers reporter).map _ = _
        rw [hworker]
        rfl
      · split <;> exact hsession
      · split <;> exact hacted
    · intro id w call hw hholding
      obtain ⟨worker, hworker, hphase, hsession⟩ := hback id w hw
      rw [hsession]
      exact honce.holder id worker call hworker (hphase ▸ hholding)
  · exact honce.cancel h hstopped hwithin.2
  · exact
      { unreported := honce.unreported
        reporter := honce.reporter
        holder := honce.holder
        accounted := honce.accounted
        once := honce.once }

theorem onceInv_initial (host : LoopHost) (limits : LoopLimits) :
    OnceInv host limits LoopWorld.initial where
  unreported := fun _ _ h => nomatch h
  reporter := fun _ _ _ h => nomatch h
  holder := fun _ _ _ h => nomatch h
  accounted := fun _ _ _ h => nomatch h
  once := List.nodup_nil

end Once

/-! ## Every run -/

/-- In every run in which no final admission lets a processed digest in, each action of a
    session is performed at most once. -/
theorem performedAtMostOnce_of_run {host : LoopHost} {limits : LoopLimits}
    {stopped : List JsString} (hkeys : limits.KeysDistinct)
    (hstopped : stopped.length ≤ MAX_TRACKED_SESSIONS) {as : List LoopLabel} {t : LoopWorld}
    (hrun : Run (Guarded (LoopStep host) fun s a =>
        WithinLimits host limits stopped s a ∧ AdmitsUnprocessed host s a) LoopWorld.initial as t) :
    t.PerformedAtMostOnce := by
  have hnext : ∀ s a t, Guarded (LoopStep host) (fun s a =>
        WithinLimits host limits stopped s a ∧ AdmitsUnprocessed host s a) s a t →
      LoopInv host limits stopped s ∧ OnceInv host limits s →
      LoopInv host limits stopped t ∧ OnceInv host limits t := by
    rintro s a t ⟨hstep, hwithin, hguard⟩ ⟨h, honce⟩
    exact ⟨h.next hkeys hstopped hstep hwithin,
      honce.next h hkeys hstopped hstep hwithin hguard⟩
  have hinv := hrun.preserves hnext
    ⟨loopInv_initial host limits stopped, onceInv_initial host limits⟩
  intro sessionID action
  exact List.nodup_iff_count_le_one.mp hinv.2.once _

instance AdmitsUnprocessed.decidable (host : LoopHost) (s : LoopWorld) (a : LoopLabel) :
    Decidable (AdmitsUnprocessed host s a) :=
  match a with
  | .step id _ =>
    decidable_of_iff
      ((s.workers id).all (fun worker =>
        match worker.phase with
        | .approved call => decide (call.action.digest host.sha256
            ∉ (s.state.record (call.event.pullRequest worker.sessionID)).processedDigests)
        | _ => true) = true)
      (by
        simp only [Option.all_eq_true, AdmitsUnprocessed]
        refine forall_congr' fun worker => ?_
        rw [forall_comm]
        refine imp_congr_right fun _ => ?_
        cases worker.phase <;> simp)
  | .call _ _ _ | .crash _ | .cancel _ _ _ | .queue _ _ _ => isTrue trivial

/-! ## Two events of one action -/

/-- Small budgets, and a `sha256` that forgets nothing. -/
def plainLoop : LoopHost where
  queue := { isUrl := fun _ => true, canonicalPrUrl := some }
  sha256 := id
  budget := { maxSessionActions := 5, maxActionsPerPr := 5 }

/-- Everything works, and oversight approves. -/
def agreeable : LoopEnv where
  fault := .none
  now := 0
  isoNow := js "T"
  isProcessAlive := fun _ => true
  localCancellation := none
  cancellationDuringWrite := none
  head := some (js "c")
  firstSnapshot := .record (some (js "c"))
  secondSnapshot := .failed
  randomUUID := js "u"
  oversight := { dispatched := true, verdict := none, decision := some (js "allow") }
  evidenceWritten := true
  performer := { performed := true, transient := false, permanent := false, error := none }

/-- A failed check of pull request 7 at head `c`. -/
def failedRun (repoFullName dedupToken : JsString) : PrFeedbackMonitorInput where
  type := js "pr.ci.failed"
  repoFullName := repoFullName
  prNumber := 7
  prUrl := js "p"
  message := js "m"
  dedupToken := dedupToken
  authorized := true
  queuedAt := js "t"
  headRefOid := some (js "c")

/-- The action of such an event. -/
def fixAction (repoFullName : JsString) : FeedbackAction where
  type := js "pr.ci.failed"
  repoFullName := repoFullName
  prNumber := 7
  head := js "c"
  actionClass := js "fix_ci"

/-- One pull request of session `s`, and one action. -/
def oneAction : LoopLimits where
  pullRequests := [{ sessionID := js "s", repoFullName := js "r", prNumber := 7 }]
  digests := fun _ => [(fixAction (js "r")).digest id]
  pullRequests_le := by decide
  digests_le := fun _ => by
    rw [List.length_singleton]
    decide

theorem oneAction_keysDistinct : oneAction.KeysDistinct := by
  intro a ha b hb _
  rw [List.mem_singleton.mp ha, List.mem_singleton.mp hb]

/-- An event is enqueued, and a process calls. -/
def startsCall (sessionID repoFullName id dedupToken : JsString) (ownerPid : Nat) :
    List LoopLabel :=
  [.queue sessionID 0 (.enqueue (failedRun repoFullName dedupToken)),
    .call id sessionID ownerPid]

/-- The call takes its next steps. -/
def goesAhead (id : JsString) (steps : Nat) : List LoopLabel :=
  List.replicate steps (.step id agreeable)

variable {repoFullName dedupToken : JsString} {ownerPid : Nat}

theorem startsCall_peaceful {sessionID id : JsString}
    (hid : (trim id = id ∧ id ≠ []) ∧ 0 < ownerPid) :
    ∀ a ∈ startsCall sessionID repoFullName id dedupToken ownerPid, a.Peaceful := by
  intro a ha
  rcases List.mem_cons.mp ha with rfl | ha
  · exact trivial
  · rw [List.mem_singleton.mp ha]
    exact ⟨hid.1.1, hid.1.2, hid.2⟩

theorem goesAhead_peaceful (id : JsString) (steps : Nat) :
    ∀ a ∈ goesAhead id steps, a.Peaceful := by
  intro a ha
  rw [List.eq_of_mem_replicate ha]
  exact fun _ => rfl

/-- A call that starts and goes ahead is peaceful. -/
theorem goingCall_peaceful {sessionID id : JsString} (hid : (trim id = id ∧ id ≠ []) ∧ 0 < ownerPid)
    (steps : Nat) :
    ∀ a ∈ startsCall sessionID repoFullName id dedupToken ownerPid ++ goesAhead id steps,
      a.Peaceful :=
  List.forall_mem_append.mpr ⟨startsCall_peaceful hid, goesAhead_peaceful id steps⟩

/-- A call that performs its action. -/
theorem performedAtMostOnce_oneCall : ∃ t : LoopWorld,
    LoopRecord.performed (js "s") (fixAction (js "r")) (js "a") ∈ t.log ∧ t.PerformedAtMostOnce := by
  have htrace : ((startsCall (js "s") (js "r") (js "a") (js "1") 1 ++ goesAhead (js "a") 14).foldlM
      (loopTraceStep plainLoop fun s a =>
        WithinLimits plainLoop oneAction [] s a ∧ AdmitsUnprocessed plainLoop s a)
      LoopWorld.initial).any (fun t =>
        decide (LoopRecord.performed (js "s") (fixAction (js "r")) (js "a") ∈ t.log)) = true := by
    decide +kernel
  obtain ⟨t, ht, hperformed⟩ := (Option.any_eq_true _ _).mp htrace
  exact ⟨t, of_decide_eq_true hperformed, performedAtMostOnce_of_run oneAction_keysDistinct
    (Nat.zero_le _) (loopRun_of_trace (goingCall_peaceful (by decide +kernel) 14) ht)⟩

/-- Two events of one action get to their approval in two processes, and both are
    performed in turn. -/
theorem not_performedAtMostOnce_sameAction :
    ∃ (host : LoopHost) (limits : LoopLimits) (as : List LoopLabel) (t : LoopWorld),
      limits.KeysDistinct
        ∧ Run (Guarded (LoopStep host) (WithinLimits host limits [])) LoopWorld.initial as t
        ∧ ¬ t.PerformedAtMostOnce := by
  have htrace : ((startsCall (js "s") (js "r") (js "a") (js "1") 1 ++ goesAhead (js "a") 8
        ++ (startsCall (js "s") (js "r") (js "b") (js "2") 2 ++ goesAhead (js "b") 8)
        ++ (goesAhead (js "a") 6 ++ goesAhead (js "b") 6)).foldlM
      (loopTraceStep plainLoop (WithinLimits plainLoop oneAction [])) LoopWorld.initial).any
      (fun t => decide
        (¬ (t.log.filterMap LoopRecord.report).count (js "s", fixAction (js "r")) ≤ 1)) = true := by
    decide +kernel
  obtain ⟨t, ht, htwice⟩ := (Option.any_eq_true _ _).mp htrace
  refine ⟨plainLoop, oneAction, _, t, oneAction_keysDistinct, loopRun_of_trace ?_ ht,
    fun honce => of_decide_eq_true htwice (honce (js "s") (fixAction (js "r")))⟩
  exact List.forall_mem_append.mpr
    ⟨List.forall_mem_append.mpr
      ⟨goingCall_peaceful (by decide +kernel) 8, goingCall_peaceful (by decide +kernel) 8⟩,
      List.forall_mem_append.mpr ⟨goesAhead_peaceful (js "a") 6, goesAhead_peaceful (js "b") 6⟩⟩

end OpencodeSwarm
