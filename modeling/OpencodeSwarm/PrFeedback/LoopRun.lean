/-
  OpencodeSwarm.PrFeedback.LoopRun

  The invariant of the PR-feedback loop over every run: any number of processes
  and calls, in any order, with crashes and operator stops in between.
-/
import OpencodeSwarm.PrFeedback.LoopSteps

namespace OpencodeSwarm

open Js Transition

/-! ## An operator stop -/

/-- A stop leaves a correlation, or it makes a later generation of it. -/
theorem cancelled_cases (isProcessAlive : Nat → Bool) (reason : JsString) (p : CorrelationState) :
    p.cancelled isProcessAlive reason = p ∨ p.SameBooks (p.cancelled isProcessAlive reason) := by
  simp only [CorrelationState.cancelled]
  split
  · refine Or.inr (.bumped rfl rfl ?_ rfl rfl)
    intro hterminal
    simp only
    split
    · exact hterminal
    · rfl
  · rename_i hidle
    left
    simp only [Bool.or_eq_true, Bool.not_eq_true', not_or, Bool.not_eq_false,
      Bool.not_eq_true] at hidle
    rw [if_pos hidle.1, if_neg (by rw [hidle.2]; exact Bool.false_ne_true)]

variable {isProcessAlive : Nat → Bool} {p : CorrelationState} {r : InFlightClaim}

/-- A stop takes a started reservation only when its owner is gone. -/
theorem cancelled_inFlight (hr : p.inFlight = some r) (hstarted : r.actionStartedAt.isSome)
    (hidentity : hasReservationIdentity r = true) (halive : isProcessAlive r.ownerPid = true)
    (reason : JsString) : (p.cancelled isProcessAlive reason).inFlight = some r := by
  have hnone : r.actionStartedAt.isNone = false := by
    rw [← Option.not_isSome, hstarted]
    rfl
  simp only [CorrelationState.cancelled, hr, Option.any_some, hidentity, halive, Bool.and_self,
    Bool.not_true, Bool.or_false, hnone, Bool.false_eq_true, if_false]
  split <;> rfl

theorem inFlight_of_cancelled {reason : JsString}
    (h : (p.cancelled isProcessAlive reason).inFlight = some r) : p.inFlight = some r := by
  have hinFlight : (p.cancelled isProcessAlive reason).inFlight
      = if (p.inFlight.any fun inFlight => inFlight.actionStartedAt.isNone
          || !(hasReservationIdentity inFlight && isProcessAlive inFlight.ownerPid)) = true
        then none else p.inFlight := by
    simp only [CorrelationState.cancelled]
    split <;> rfl
  rw [hinFlight] at h
  split at h
  · cases h
  · exact h

section Run

variable {host : LoopHost} {limits : LoopLimits} {stopped : List JsString} {s t : LoopWorld}

/-- The document that a stop writes. -/
def stoppedState (isProcessAlive : Nat → Bool) (sessionID reason : JsString) (state : LoopState) :
    LoopState :=
  { state with
    correlations := state.correlations.map fun entry =>
      if entry.2.sessionID = sessionID then (entry.1, entry.2.cancelled isProcessAlive reason)
      else entry
    sessionTerminals :=
      if (state.cancellation sessionID).isSome then state.sessionTerminals
      else state.sessionTerminals.set sessionID { state := .cancelled, reason := reason } }

theorem cancelSession_eq (isProcessAlive : Nat → Bool) (sessionID reason : JsString)
    (state : LoopState) :
    cancelSession isProcessAlive sessionID reason state
      = (some (stoppedState isProcessAlive sessionID reason state), some ()) := rfl

theorem record_stoppedState (isProcessAlive : Nat → Bool) (sessionID reason : JsString)
    (state : LoopState) (pr : LoopPullRequest) :
    (stoppedState isProcessAlive sessionID reason state).record pr = state.record pr
      ∨ ((state.record pr).sessionID = sessionID
        ∧ (stoppedState isProcessAlive sessionID reason state).record pr
          = (state.record pr).cancelled isProcessAlive reason) := by
  have hget : (stoppedState isProcessAlive sessionID reason state).correlations.get? pr.key
      = (state.correlations.get? pr.key).map fun p =>
          if p.sessionID = sessionID then p.cancelled isProcessAlive reason else p := by
    have hmap := OrderedMap.get?_map state.correlations (fun entry =>
      if entry.2.sessionID = sessionID then (entry.1, entry.2.cancelled isProcessAlive reason)
      else entry) (fun entry => by split <;> rfl) pr.key
    refine hmap.trans ?_
    congr 1
    funext p
    split <;> rfl
  cases hold : state.correlations.get? pr.key with
  | none =>
    left
    rw [hold] at hget
    rw [LoopState.record_of_none hold, LoopState.record_of_none hget]
  | some p =>
    rw [hold, Option.map_some] at hget
    rw [LoopState.record_of_some hold, LoopState.record_of_some hget]
    by_cases hsession : p.sessionID = sessionID
    · exact Or.inr ⟨hsession, if_pos hsession⟩
    · exact Or.inl (if_neg hsession)

theorem keys_stoppedState (isProcessAlive : Nat → Bool) (sessionID reason : JsString)
    (state : LoopState) :
    (stoppedState isProcessAlive sessionID reason state).correlations.keys
      = state.correlations.keys :=
  OrderedMap.keys_map state.correlations _ fun entry => by split <;> rfl

variable {sessionID : JsString}

theorem LoopInv.stop_terminals (h : LoopInv host limits stopped s) (hmem : sessionID ∈ stopped)
    (isProcessAlive : Nat → Bool) (reason : JsString) :
    let next := stoppedState isProcessAlive sessionID reason s.state
    next.sessionTerminals.keys.Nodup ∧ ∀ other ∈ next.sessionTerminals.keys, other ∈ stopped := by
  dsimp only [stoppedState]
  split
  · exact ⟨h.terminals_nodup, h.terminals_mem⟩
  refine ⟨OrderedMap.nodup_keys_set h.terminals_nodup, fun other hother => ?_⟩
  rcases OrderedMap.mem_keys_set hother with rfl | hold
  · exact hmem
  · exact h.terminals_mem other hold

theorem LoopInv.cancel_state (h : LoopInv host limits stopped s)
    (hstopped : stopped.length ≤ MAX_TRACKED_SESSIONS) (hmem : sessionID ∈ stopped)
    (reason : JsString) (env : LoopEnv) : ((s.cancel sessionID reason env).state = s.state
        ∧ (s.cancel sessionID reason env).log = s.log) ∨ ((s.cancel sessionID reason env).state
          = stoppedState env.isProcessAlive sessionID reason s.state
        ∧ (s.cancel sessionID reason env).log = s.log ++ [.cancelled sessionID]) := by
  have hwritten : (stoppedState env.isProcessAlive sessionID reason s.state).written
      = stoppedState env.isProcessAlive sessionID reason s.state := by
    obtain ⟨hnodup, hstops⟩ := h.stop_terminals hmem env.isProcessAlive reason
    refine @written_of_keys limits _ stopped ?_ ?_ hnodup hstops hstopped
    · rw [keys_stoppedState]
      exact h.keys_nodup
    · rw [keys_stoppedState]
      exact h.keys_mem
  simp only [LoopWorld.cancel, withLoopStateLock, cancelSession_eq, Option.map_some,
    Option.getD_some, hwritten]
  cases env.fault with
  | none | thrown => exact Or.inr ⟨rfl, by simp⟩
  | corrupt | lost => exact Or.inl ⟨rfl, by simp⟩

/-! ## A step of a call -/

variable {env : LoopEnv} {id : JsString} {worker : LoopWorker} {e : LoopEffect}

/-- What a step of a call makes of the correlation of its pull request. -/
inductive RecordChange (host : LoopHost) (env : LoopEnv) (id : JsString) (worker : LoopWorker)
    (state : LoopState) (pr : LoopPullRequest) (q : CorrelationState) : Prop where
  | moved (hmove : RecordMove (state.record pr) q)
  | cleared (call : LoopCall) (startedAt : Option Int) (refusal : Option LoopTerminal)
      (hcall : worker.phase = .clearing call startedAt refusal)
      (hmove : ClearMove id (state.record pr) q)
  | reserved (call : LoopCall) (hcall : worker.phase = .approved call) (free : CorrelationState)
      (hmove : ReserveMove env.isProcessAlive (call.reservation env id worker)
        (state.record pr) q)
      (hfree : free.inFlight = none ∧ free.prActionsUsed = (state.record pr).prActionsUsed
        ∧ free.pullRequest = (state.record pr).pullRequest)
      (hroom : HasRoom host.budget env.isProcessAlive pr state free)
      (hcancel : state.cancellation worker.sessionID = none)
  | marked (call : LoopCall) (hcall : worker.phase = .marking call)
      (hmove : MarkMove id worker.ownerPid env.now (state.record pr) q)
  | settled (call : LoopCall) (outcome : PerformOutcome)
    (hcall : worker.phase = .acted call outcome)
      (hpr : call.event.pullRequest worker.sessionID = pr)
      (hmove : SettleMove id worker.ownerPid outcome.performed (call.action.digest host.sha256)
        (state.record pr) q)

/-- What a step of a call does to the document: nothing, or one correlation is put back. -/
inductive DocumentMove (host : LoopHost) (env : LoopEnv) (id : JsString) (worker : LoopWorker)
    (state next : LoopState) : Prop where
  | same (hsame : state.Same next)
  | put (event : PrFeedbackMonitorEvent) (q : CorrelationState)
      (hevent : worker.phase.event = some event)
      (hstate : next = state.put (event.pullRequest worker.sessionID).key q)
      (hchange : RecordChange host env id worker state (event.pullRequest worker.sessionID) q)

variable {state : LoopState}

theorem CallMove.document (hmove : CallMove host env id worker state e) :
    DocumentMove host env id worker state e.state := by
  cases hmove with
  | quiet hstate _ _ => exact .same hstate
  | moved event hevent q hmove hstate _ _ => exact .put event q hevent hstate (.moved hmove)
  | cleared call startedAt refusal hcall q hmove hstate _ _ =>
    exact .put call.event q (by rw [hcall]; rfl) hstate (.cleared _ _ _ hcall hmove)
  | reserved call hcall free q hmove hfree hroom hcancel hstate _ _ =>
    exact .put call.event q (by rw [hcall]; rfl) hstate
      (.reserved call hcall free hmove hfree hroom hcancel)
  | marked call hcall q hmove _ hstate _ _ =>
    exact .put call.event q (by rw [hcall]; rfl) hstate (.marked call hcall hmove)
  | begins _ _ _ hstate _ _ | performs _ _ _ hstate _ _ => exact .same (hstate ▸ .refl _)
  | settled call outcome hcall q hmove hstate _ _ =>
    exact .put call.event q (by rw [hcall]; rfl) hstate (.settled call outcome hcall rfl hmove)

theorem RecordChange.precedes {pr : LoopPullRequest} {q : CorrelationState}
    (h : RecordChange host env id worker state pr q) : (state.record pr).Precedes q := by
  cases h with
  | moved hmove | cleared _ _ _ _ hmove | reserved _ _ _ hmove _ _ _ | marked _ _ hmove =>
    exact hmove.books.toPrecedes
  | settled _ _ _ _ hmove => exact hmove.toPrecedes

/-- The record of a pull request behind a step of a call. -/
theorem CallMove.record_cases (hkeys : limits.KeysDistinct)
    (hok : WorkerOk host limits s.state id worker) (hmove : CallMove host env id worker s.state e)
    {pr : LoopPullRequest} (hpr : pr ∈ limits.pullRequests) :
    e.state.record pr = s.state.record pr ∨ (worker.sessionID = pr.sessionID
        ∧ RecordChange host env id worker s.state pr (e.state.record pr)) := by
  cases hmove.document with
  | same hsame => exact Or.inl (hsame.record pr)
  | put event q hevent hstate hchange =>
    rw [hstate, LoopState.record_put hkeys (hok.event event hevent) hpr]
    split
    · rename_i heq
      subst heq
      exact Or.inr ⟨rfl, hchange⟩
    · exact Or.inl rfl

/-- Nobody but its owner takes a started reservation away in a step of a call. -/
theorem CallMove.keeps_started (h : LoopInv host limits stopped s) (hkeys : limits.KeysDistinct)
    (hworker : s.workers id = some worker) (hmove : CallMove host env id worker s.state e)
    {pr : LoopPullRequest} (hpr : pr ∈ limits.pullRequests) {r : InFlightClaim}
    (hr : (s.state.record pr).inFlight = some r) (hstarted : r.actionStartedAt.isSome)
    (hother : r.workflowInstanceId ≠ id) : (e.state.record pr).inFlight = some r
      ∧ (e.state.record pr).prActionsUsed = (s.state.record pr).prActionsUsed
      ∧ (e.state.record pr).processedDigests = (s.state.record pr).processedDigests := by
  rcases hmove.record_cases hkeys (h.workers id worker hworker) hpr with hsame | ⟨-, hchange⟩
  · rw [hsame]
    exact ⟨hr, rfl, rfl⟩
  cases hchange with
  | moved hmove =>
    cases hmove with
    | kept books hsame => exact ⟨hsame.trans hr, books.prActionsUsed, books.processedDigests⟩
    | dropped _ _ hunstarted =>
      rw [hunstarted r hr] at hstarted
      cases hstarted
  | cleared _ _ _ _ hmove => exact absurd (hmove.own r hr) hother
  | reserved _ _ _ hmove _ _ _ =>
    have hfree := hmove.free
    rw [hr, reservationIsLive_of_started hstarted] at hfree
    cases hfree
  | marked _ _ hmove =>
    obtain ⟨earlier, hearlier, -, hunstarted, -⟩ := hmove.reservation
    cases hr.symm.trans hearlier
    rw [hunstarted] at hstarted
    cases hstarted
  | settled _ _ _ _ hmove =>
    obtain ⟨owned, howned, hown⟩ := hmove.reservation
    cases hr.symm.trans howned
    exact absurd hown.workflowInstanceId hother

/-- A call whose action runs has just marked it, or it ran before. -/
theorem CallMove.acting_cases (hmove : CallMove host env id worker state e) {call : LoopCall}
    (hcall : e.worker.phase.acting = some call) : (∃ q, MarkMove id worker.ownerPid env.now
          (state.record (call.event.pullRequest worker.sessionID)) q
        ∧ e.state = state.put (call.event.pullRequest worker.sessionID).key q)
      ∨ (worker.phase.acting = some call ∧ e.state = state) := by
  have hnever : e.worker.phase.acting ≠ none := by
    rw [hcall]
    exact Option.some_ne_none call
  cases hmove with
  | quiet _ _ hphase | moved _ _ _ _ _ _ hphase | cleared _ _ _ _ _ _ _ _ hphase
  | reserved _ _ _ _ _ _ _ _ _ _ hphase | settled _ _ _ _ _ _ _ hphase => exact absurd hphase hnever
  | marked earlier _ q hmove _ hstate _ hphase =>
    rcases hphase with hnone | hstarted
    · exact absurd hnone hnever
    · rw [hstarted] at hcall
      obtain rfl : { earlier with correlation := q } = call := Option.some.inj hcall
      exact Or.inl ⟨q, hmove, hstate⟩
  | begins earlier _ hearlier hstate _ hphase =>
    rw [hphase] at hcall
    obtain rfl : earlier = call := Option.some.inj hcall
    exact Or.inr ⟨by rw [hearlier]; rfl, hstate⟩
  | performs earlier _ hearlier hstate _ hphase =>
    have hsame : earlier = call := by
      rcases hphase with hphase | ⟨-, hphase⟩ <;> rw [hphase] at hcall <;>
        exact Option.some.inj hcall
    subst hsame
    exact Or.inr ⟨by rw [hearlier]; rfl, hstate⟩

theorem CallMove.acted_cases (hmove : CallMove host env id worker state e) {call : LoopCall}
    {outcome : PerformOutcome} (hphase : e.worker.phase = .acted call outcome) :
    ∃ attempt, worker.phase = .performing call attempt ∧ outcome = env.performer := by
  have hnever : e.worker.phase.acting ≠ none := by
    rw [hphase]
    exact Option.some_ne_none call
  cases hmove with
  | quiet _ _ hnone | moved _ _ _ _ _ _ hnone | cleared _ _ _ _ _ _ _ _ hnone
  | reserved _ _ _ _ _ _ _ _ _ _ hnone | settled _ _ _ _ _ _ _ hnone => exact absurd hnone hnever
  | marked _ _ _ _ _ _ _ hnext =>
    rcases hnext with hnone | hstarted
    · exact absurd hnone hnever
    · rw [hphase] at hstarted
      cases hstarted
  | begins _ _ _ _ _ hnext =>
    rw [hphase] at hnext
    cases hnext
  | performs earlier attempt hearlier _ _ hnext =>
    rcases hnext with hnext | ⟨-, hnext⟩
    · rw [hphase] at hnext
      cases hnext
      exact ⟨attempt, hearlier, rfl⟩
    · rw [hphase] at hnext
      cases hnext

theorem LoopPhase.event_of_acting {phase : LoopPhase} {call : LoopCall}
    (h : phase.acting = some call) : phase.event = some call.event := by
  cases phase <;> cases h <;> rfl

theorem RecordOk.of_workers {workers workers' : JsString → Option LoopWorker}
    {pr : LoopPullRequest} {p : CorrelationState} (h : RecordOk limits workers pr p)
    (hworkers : ∀ id worker, workers id = some worker →
      ∃ worker', workers' id = some worker' ∧ worker'.ownerPid = worker.ownerPid) :
    RecordOk limits workers' pr p where
  pullRequest := h.pullRequest
  digests_nodup := h.digests_nodup
  digests_mem := h.digests_mem
  settled := h.settled
  owner := by
    intro r hr
    obtain ⟨hidentity, worker, hworker, hpid⟩ := h.owner r hr
    obtain ⟨worker', hworker', hpid'⟩ := hworkers _ _ hworker
    exact ⟨hidentity, worker', hworker', hpid'.trans hpid⟩

theorem DocumentMove.sessionTerminals {next : LoopState}
    (h : DocumentMove host env id worker state next) :
    next.sessionTerminals = state.sessionTerminals := by
  cases h with
  | same hsame => exact hsame.sessionTerminals
  | put event q _ hstate _ =>
    rw [hstate]
    rfl

theorem DocumentMove.keys {next : LoopState} (h : LoopInv host limits stopped s)
    (hok : WorkerOk host limits s.state id worker)
    (hdocument : DocumentMove host env id worker s.state next) : next.correlations.keys.Nodup
      ∧ ∀ key ∈ next.correlations.keys, ∃ pr ∈ limits.pullRequests, pr.key = key := by
  cases hdocument with
  | same hsame =>
    rw [hsame.correlations]
    exact ⟨h.keys_nodup, h.keys_mem⟩
  | put event q hevent hstate _ =>
    rw [hstate]
    exact ⟨OrderedMap.nodup_keys_set h.keys_nodup, h.keys_put (hok.event event hevent) q⟩

section Record

variable {pr : LoopPullRequest} {q : CorrelationState} {state : LoopState}

/-- A reservation behind a step is the earlier one or the call's own. -/
theorem RecordChange.owner (h : RecordChange host env id worker state pr q) {r : InFlightClaim}
    (hr : q.inFlight = some r) : (∃ earlier, (state.record pr).inFlight = some earlier
        ∧ earlier.workflowInstanceId = r.workflowInstanceId ∧ earlier.ownerPid = r.ownerPid)
      ∨ (r.workflowInstanceId = id ∧ r.ownerPid = worker.ownerPid) := by
  cases h with
  | moved hmove =>
    cases hmove with
    | kept _ hsame => exact Or.inl ⟨r, hsame ▸ hr, rfl, rfl⟩
    | dropped _ hnone _ =>
      rw [hnone] at hr
      cases hr
  | cleared _ _ _ _ hmove | settled _ _ _ _ hmove =>
    rw [hmove.inFlight] at hr
    cases hr
  | reserved _ _ _ hmove _ _ _ =>
    rw [hmove.inFlight] at hr
    cases hr
    exact Or.inr ⟨rfl, rfl⟩
  | marked _ _ hmove =>
    obtain ⟨earlier, hearlier, -, -, hq⟩ := hmove.reservation
    rw [hq] at hr
    cases hr
    exact Or.inl ⟨earlier, hearlier, rfl, rfl⟩

/-- The books of a correlation go on as they are, or a settlement enters its digest. -/
theorem RecordChange.books (h : RecordChange host env id worker state pr q) :
    (state.record pr).SameBooks q ∨ ∃ call outcome, worker.phase = .acted call outcome
          ∧ call.event.pullRequest worker.sessionID = pr
          ∧ SettleMove id worker.ownerPid outcome.performed (call.action.digest host.sha256)
            (state.record pr) q := by
  cases h with
  | moved hmove | cleared _ _ _ _ hmove | reserved _ _ _ hmove _ _ _ | marked _ _ hmove =>
    exact Or.inl hmove.books
  | settled call outcome hcall hpr hmove => exact Or.inr ⟨call, outcome, hcall, hpr, hmove⟩

variable {workers : JsString → Option LoopWorker}

theorem SettleMove.digests_ok {p : CorrelationState} {performed : Bool} {digest : JsString}
    {ownerPid : Nat} (hmove : SettleMove id ownerPid performed digest p q)
    (h : RecordOk limits workers pr p) (hdigest : performed = true → digest ∈ limits.digests pr) :
    q.processedDigests.Nodup ∧ ∀ other ∈ q.processedDigests, other ∈ limits.digests pr := by
  rw [hmove.processedDigests]
  split
  · rename_i hperformed
    rw [processedDigests_record]
    split
    · exact ⟨h.digests_nodup, h.digests_mem⟩
    rename_i hnew
    refine ⟨(h.digests_nodup.append (List.nodup_singleton _)
      (List.disjoint_singleton.mpr hnew)).sublist (List.drop_sublist _ _), fun other hother => ?_⟩
    rcases List.mem_append.mp (List.mem_of_mem_drop hother) with hold | hlast
    · exact h.digests_mem other hold
    · rw [List.mem_singleton.mp hlast]
      exact hdigest hperformed
  · exact ⟨h.digests_nodup, h.digests_mem⟩

theorem RecordChange.recordOk (hok : WorkerOk host limits s.state id worker)
    (hold : RecordOk limits workers pr (s.state.record pr))
    (hself : ∃ worker', workers id = some worker' ∧ worker'.ownerPid = worker.ownerPid)
    (h : RecordChange host env id worker s.state pr q) : RecordOk limits workers pr q := by
  have howner : ∀ r, q.inFlight = some r → hasReservationIdentity r = true
      ∧ ∃ worker, workers r.workflowInstanceId = some worker ∧ worker.ownerPid = r.ownerPid := by
    intro r hr
    rcases h.owner hr with ⟨earlier, hearlier, hid, hpid⟩ | ⟨hid, hpid⟩
    · obtain ⟨hidentity, w, hw, hwpid⟩ := hold.owner earlier hearlier
      refine ⟨?_, w, hid ▸ hw, hwpid.trans hpid⟩
      rw [hasReservationIdentity] at hidentity ⊢
      rw [← hid, ← hpid]
      exact hidentity
    · obtain ⟨worker', hworker', hsame⟩ := hself
      refine ⟨?_, worker', hid ▸ hworker', hsame.trans hpid.symm⟩
      obtain ⟨htrim, hne, hpos⟩ := hok.identity
      rw [hasReservationIdentity, hid, hpid, htrim, Bool.and_eq_true, Bool.not_eq_true',
        List.isEmpty_eq_false_iff, decide_eq_true_eq]
      exact ⟨hne, hpos⟩
  have hpull := h.precedes.pullRequest.trans hold.pullRequest
  rcases h.books with books | ⟨call, outcome, hcall, hpr, hmove⟩
  · exact ⟨hpull, books.processedDigests ▸ hold.digests_nodup,
      books.processedDigests ▸ hold.digests_mem,
      fun hdigests => books.terminal (hold.settled (books.processedDigests ▸ hdigests)), howner⟩
  · obtain ⟨hnodup, hmem⟩ := hmove.digests_ok hold (hpr ▸ hok.acted call outcome hcall)
    exact ⟨hpull, hnodup, hmem, fun _ => hmove.settled, howner⟩

end Record

/-- The call that steps. -/
theorem WorkerOk.step (hok : WorkerOk host limits s.state id worker)
    (hworker : s.workers id = some worker) (hlimits : limits.Admit host s (.step id env))
    (hcall : CallStep host limits env id worker s.state e) :
    WorkerOk host limits e.state id e.worker := by
  obtain ⟨hsame, hknows, hmove⟩ := hcall
  refine
    { identity := hsame.ownerPid ▸ hok.identity
      event := ?_
      copy := ?_
      acting := ?_
      acted := ?_ } <;> rw [hsame.sessionID]
  · exact hknows.event
  · exact hknows.copy
  · intro hcrashed call hcall
    rw [hsame.crashed] at hcrashed
    rcases hmove.acting_cases hcall with ⟨q, hmark, hstate⟩ | ⟨hearlier, hstate⟩
    · obtain ⟨r, -, howned, -, hq⟩ := hmark.reservation
      rw [hstate, LoopState.record_put_self]
      exact ⟨_, hq, howned.workflowInstanceId, rfl⟩
    · rw [hstate]
      exact hok.acting hcrashed call hearlier
  · intro call outcome hphase hperformed
    obtain ⟨attempt, hearlier, rfl⟩ := hmove.acted_cases hphase
    have hwithin := hlimits worker hworker
    rw [hearlier] at hwithin
    exact hwithin hperformed

theorem LoopInv.step (h : LoopInv host limits stopped s) (hkeys : limits.KeysDistinct)
    (hworker : s.workers id = some worker) (hlimits : limits.Admit host s (.step id env))
    (hcall : CallStep host limits env id worker s.state e) :
    LoopInv host limits stopped (s.after id e) := by
  have hok := h.workers id worker hworker
  have hdocument := hcall.move.document
  have hself : (s.after id e).workers id = some e.worker := Function.update_self ..
  have hworkers : ∀ other w, s.workers other = some w → ∃ w',
      (s.after id e).workers other = some w' ∧ w'.ownerPid = w.ownerPid := by
    intro other w hw
    by_cases hid : other = id
    · subst hid
      cases hworker.symm.trans hw
      exact ⟨e.worker, hself, hcall.same.ownerPid⟩
    · exact ⟨w, (Function.update_of_ne hid _ _).trans hw, rfl⟩
  refine
    { keys_nodup := (hdocument.keys h hok).1
      keys_mem := (hdocument.keys h hok).2
      terminals_nodup := hdocument.sessionTerminals ▸ h.terminals_nodup
      terminals_mem := hdocument.sessionTerminals ▸ h.terminals_mem
      records := ?_
      workers := ?_ }
  · intro pr hpr
    have hold := (h.records pr hpr).of_workers hworkers
    rcases hcall.move.record_cases hkeys hok hpr with hsame | ⟨-, hchange⟩
    · exact hsame.symm ▸ hold
    · exact hchange.recordOk hok hold ⟨e.worker, hself, hcall.same.ownerPid⟩
  · intro other w hw
    by_cases hid : other = id
    · subst hid
      cases hself.symm.trans hw
      exact hok.step hworker hlimits hcall
    · have hother := h.workers other w ((Function.update_of_ne hid _ _).symm.trans hw)
      refine
        { identity := hother.identity
          event := hother.event
          copy := ?_
          acting := ?_
          acted := hother.acted }
      · intro event copy hevent hcopy
        have hcopyOf := hother.copy event copy hevent hcopy
        rcases hcall.move.record_cases hkeys hok (hother.event event hevent)
          with hsame | ⟨-, hchange⟩
        · exact hsame.symm ▸ hcopyOf
        · exact hcopyOf.later hchange.precedes
      · intro hcrashed call hacting
        have hpr := hother.event _ (LoopPhase.event_of_acting hacting)
        obtain ⟨r, hr, hown, hstarted⟩ := hother.acting hcrashed call hacting
        exact ⟨r, (hcall.move.keeps_started h hkeys hworker hpr hr hstarted (by rw [hown]; exact hid)).1,
          hown, hstarted⟩

/-! ## Every step, and every run -/

/-- A call has begun. -/
def LoopWorld.withCall (s : LoopWorld) (id : JsString) (worker : LoopWorker) : LoopWorld :=
  { s with workers := Function.update s.workers id (some worker) }

theorem LoopInv.call (h : LoopInv host limits stopped s) {ownerPid : Nat}
    {pending : PrFeedbackMonitorEvent} (hnew : s.workers id = none)
    (hid : trim id = id ∧ id ≠ [] ∧ 0 < ownerPid) :
    LoopInv host limits stopped (s.withCall id (newWorker sessionID ownerPid pending)) := by
  have hne : ∀ other w, s.workers other = some w → other ≠ id := by
    rintro other w hw rfl
    rw [hnew] at hw
    cases hw
  refine
    { keys_nodup := h.keys_nodup
      keys_mem := h.keys_mem
      terminals_nodup := h.terminals_nodup
      terminals_mem := h.terminals_mem
      records := fun pr hpr => (h.records pr hpr).of_workers fun other w hw =>
        ⟨w, (Function.update_of_ne (hne other w hw) _ _).trans hw, rfl⟩
      workers := ?_ }
  intro other w hw
  change Function.update s.workers id _ other = some w at hw
  by_cases heq : other = id
  · subst heq
    rw [Function.update_self] at hw
    cases hw
    exact
      { identity := hid
        event := fun _ h => nomatch h
        copy := fun _ _ h => nomatch h
        acting := fun _ _ h => nomatch h
        acted := fun _ _ h => nomatch h }
  · rw [Function.update_of_ne heq] at hw
    exact h.workers other w hw

theorem LoopInv.crash (h : LoopInv host limits stopped s) (ownerPid : Nat) :
    LoopInv host limits stopped (s.crash ownerPid) := by
  refine
    { keys_nodup := h.keys_nodup
      keys_mem := h.keys_mem
      terminals_nodup := h.terminals_nodup
      terminals_mem := h.terminals_mem
      records := fun pr hpr => (h.records pr hpr).of_workers fun id worker hworker => ?_
      workers := ?_ }
  · refine ⟨if worker.ownerPid = ownerPid then { worker with crashed := true } else worker, ?_, ?_⟩
    · show (s.workers id).map _ = _
      rw [hworker]
      rfl
    · split <;> rfl
  · intro id w hw
    obtain ⟨worker, hworker, rfl⟩ := Option.map_eq_some_iff.mp hw
    have hok := h.workers id worker hworker
    split
    · exact
        { identity := hok.identity
          event := hok.event
          copy := hok.copy
          acting := fun hcrashed => nomatch hcrashed
          acted := hok.acted }
    · exact hok

theorem LoopInv.cancel (h : LoopInv host limits stopped s)
    (hstopped : stopped.length ≤ MAX_TRACKED_SESSIONS) {reason : JsString}
    (hmem : sessionID ∈ stopped) (hsound : s.LivenessSound env) :
    LoopInv host limits stopped (s.cancel sessionID reason env) := by
  rcases h.cancel_state hstopped hmem reason env with ⟨hstate, -⟩ | ⟨hstate, -⟩
  · refine
      { keys_nodup := ?_
        keys_mem := ?_
        terminals_nodup := ?_
        terminals_mem := ?_
        records := ?_
        workers := ?_ } <;> rw [hstate]
    · exact h.keys_nodup
    · exact h.keys_mem
    · exact h.terminals_nodup
    · exact h.terminals_mem
    · exact h.records
    · exact h.workers
  · obtain ⟨hnodup, hstops⟩ := h.stop_terminals hmem env.isProcessAlive reason
    have hcases := record_stoppedState env.isProcessAlive sessionID reason s.state
    refine
      { keys_nodup := ?_
        keys_mem := ?_
        terminals_nodup := ?_
        terminals_mem := ?_
        records := ?_
        workers := ?_ } <;> rw [hstate]
    · rw [keys_stoppedState]
      exact h.keys_nodup
    · rw [keys_stoppedState]
      exact h.keys_mem
    · exact hnodup
    · exact hstops
    · intro pr hpr
      have hrecord := h.records pr hpr
      rcases hcases pr with hsame | ⟨-, hcancelled⟩
      · rw [hsame]
        exact hrecord
      · rw [hcancelled]
        rcases cancelled_cases env.isProcessAlive reason (s.state.record pr) with hsame | books
        · rw [hsame]
          exact hrecord
        · exact
            { pullRequest := books.pullRequest.trans hrecord.pullRequest
              digests_nodup := books.processedDigests ▸ hrecord.digests_nodup
              digests_mem := books.processedDigests ▸ hrecord.digests_mem
              settled := fun hdigests =>
                books.terminal (hrecord.settled (books.processedDigests ▸ hdigests))
              owner := fun r hr => hrecord.owner r (inFlight_of_cancelled hr) }
    · intro id worker hworker
      have hok := h.workers id worker hworker
      refine
        { identity := hok.identity
          event := hok.event
          copy := ?_
          acting := ?_
          acted := hok.acted }
      · intro event copy hevent hcopy
        have hold := hok.copy event copy hevent hcopy
        rcases hcases (event.pullRequest worker.sessionID) with hsame | ⟨-, hcancelled⟩
        · rw [hsame]
          exact hold
        · rw [hcancelled]
          rcases cancelled_cases env.isProcessAlive reason
              (s.state.record (event.pullRequest worker.sessionID)) with hsame | books
          · rw [hsame]
            exact hold
          · exact hold.later books.toPrecedes
      · intro hcrashed call hcall
        obtain ⟨r, hr, hown, hstarted⟩ := hok.acting hcrashed call hcall
        refine ⟨r, ?_, hown, hstarted⟩
        rcases hcases (call.event.pullRequest worker.sessionID) with hsame | ⟨-, hcancelled⟩
        · rw [hsame]
          exact hr
        · have hpr := hok.event _ (LoopPhase.event_of_acting hcall)
          obtain ⟨hidentity, owner, howner, hpid⟩ := (h.records _ hpr).owner r hr
          rw [hown] at howner
          cases (show s.workers id = some worker from hworker).symm.trans howner
          rw [hcancelled]
          exact cancelled_inFlight hr hstarted hidentity (hpid ▸ hsound id worker hworker hcrashed)
            reason

/-- What a run of the loop is restricted to: the limits, and stops of a few sessions. -/
def WithinLimits (host : LoopHost) (limits : LoopLimits) (stopped : List JsString) (s : LoopWorld)
    (a : LoopLabel) : Prop :=
  limits.Admit host s a ∧ CancelsAmong stopped a

theorem loopInv_initial (host : LoopHost) (limits : LoopLimits) (stopped : List JsString) :
    LoopInv host limits stopped LoopWorld.initial where
  keys_nodup := List.nodup_nil
  keys_mem := fun _ h => nomatch h
  terminals_nodup := List.nodup_nil
  terminals_mem := fun _ h => nomatch h
  records := fun _ _ =>
    { pullRequest := rfl
      digests_nodup := List.nodup_nil
      digests_mem := fun _ h => nomatch h
      settled := fun h => absurd rfl h
      owner := fun _ h => nomatch h }
  workers := fun _ _ h => nomatch h

theorem loopStep_cases {a : LoopLabel} (h : LoopStep host s a t) :
    (∃ id sessionID ownerPid pending, a = .call id sessionID ownerPid ∧ s.workers id = none
        ∧ (trim id = id ∧ id ≠ [] ∧ 0 < ownerPid)
        ∧ t = s.withCall id (newWorker sessionID ownerPid pending))
      ∨ (∃ id env worker e, a = .step id env ∧ s.workers id = some worker ∧ worker.crashed = false
        ∧ callStep host env id worker s.state (s.queues worker.sessionID) = some e
        ∧ s.LivenessSound env ∧ s.FreshToken env ∧ t = s.after id e)
      ∨ (∃ ownerPid, a = .crash ownerPid ∧ t = s.crash ownerPid)
      ∨ (∃ sessionID reason env, a = .cancel sessionID reason env ∧ s.LivenessSound env
        ∧ t = s.cancel sessionID reason env)
      ∨ (∃ sessionID origin mutation queues, a = .queue sessionID origin mutation
        ∧ t = { s with queues := queues }) := by
  obtain ⟨hstep, hadmissible⟩ := h
  cases a with
  | call id sessionID ownerPid =>
    simp only [loopStep] at hstep
    split at hstep
    · cases hstep
    rename_i hnew
    obtain ⟨pending, -, rfl⟩ := Option.map_eq_some_iff.mp hstep
    exact Or.inl ⟨id, sessionID, ownerPid, pending, rfl, Option.not_isSome_iff_eq_none.mp hnew,
      hadmissible, rfl⟩
  | step id env =>
    simp only [loopStep] at hstep
    cases hworker : s.workers id with
    | none =>
      rw [hworker] at hstep
      cases hstep
    | some worker =>
      simp only [hworker] at hstep
      split at hstep
      · cases hstep
      rename_i hcrashed
      obtain ⟨e, he, rfl⟩ := Option.map_eq_some_iff.mp hstep
      exact Or.inr (Or.inl ⟨id, env, worker, e, rfl, hworker, Bool.not_eq_true _ ▸ hcrashed, he,
        hadmissible.1, hadmissible.2, rfl⟩)
  | crash ownerPid =>
    cases hstep
    exact Or.inr (Or.inr (Or.inl ⟨ownerPid, rfl, rfl⟩))
  | cancel sessionID reason env =>
    cases hstep
    exact Or.inr (Or.inr (Or.inr (Or.inl ⟨sessionID, reason, env, rfl, hadmissible, rfl⟩)))
  | queue sessionID origin mutation =>
    cases hstep
    exact Or.inr (Or.inr (Or.inr (Or.inr ⟨sessionID, origin, mutation, _, rfl, rfl⟩)))

theorem LoopInv.next (h : LoopInv host limits stopped s) (hkeys : limits.KeysDistinct)
    (hstopped : stopped.length ≤ MAX_TRACKED_SESSIONS) {a : LoopLabel}
    (hstep : LoopStep host s a t) (hwithin : WithinLimits host limits stopped s a) :
    LoopInv host limits stopped t := by
  rcases loopStep_cases hstep with ⟨id, sessionID, ownerPid, pending, rfl, hnew, hid, rfl⟩
    | ⟨id, env, worker, e, rfl, hworker, -, he, -, -, rfl⟩ | ⟨ownerPid, rfl, rfl⟩
    | ⟨sessionID, reason, env, rfl, hsound, rfl⟩ | ⟨sessionID, origin, mutation, queues, rfl, rfl⟩
  · exact h.call hnew hid
  · exact h.step hkeys hworker hwithin.1
      (callStep_step h hstopped hworker hwithin.1 he)
  · exact h.crash ownerPid
  · exact h.cancel hstopped hwithin.2 hsound
  · exact
      { keys_nodup := h.keys_nodup
        keys_mem := h.keys_mem
        terminals_nodup := h.terminals_nodup
        terminals_mem := h.terminals_mem
        records := h.records
        workers := h.workers }

end Run

/-! ## Traces -/

/-- The call of a label that moves one. -/
def LoopLabel.moved : LoopLabel → Option JsString
  | .step id _ => some id
  | _ => none

/-- The label by itself keeps what the runtime promises: calls have names, and every
    process answers. -/
def LoopLabel.Peaceful : LoopLabel → Prop
  | .call id _ ownerPid => trim id = id ∧ id ≠ [] ∧ 0 < ownerPid
  | .step _ env | .cancel _ _ env => ∀ pid, env.isProcessAlive pid = true
  | _ => True

/-- A step under the guard that starts no probe. -/
def loopTraceStep (host : LoopHost) (guard : LoopWorld → LoopLabel → Prop)
    [∀ s a, Decidable (guard s a)] (s : LoopWorld) (a : LoopLabel) : Option LoopWorld :=
  if guard s a then
    (loopStep host s a).filter fun t =>
      (a.moved.bind t.workers).all fun worker => worker.probeOwnerToken.isNone
  else none

theorem loopRun_of_trace {host : LoopHost} {guard : LoopWorld → LoopLabel → Prop}
    [∀ s a, Decidable (guard s a)] {as : List LoopLabel} {t : LoopWorld}
    (hpeaceful : ∀ a ∈ as, a.Peaceful)
    (htrace : as.foldlM (loopTraceStep host guard) LoopWorld.initial = some t) :
    Run (Guarded (LoopStep host) guard) LoopWorld.initial as t := by
  have hrun := Run.of_foldlM htrace
  clear htrace
  suffices h : Run (Guarded (LoopStep host) guard) LoopWorld.initial as t
      ∧ ∀ id worker, t.workers id = some worker → worker.probeOwnerToken = none from h.1
  induction hrun with
  | nil => exact ⟨Run.nil _, fun _ _ h => nomatch h⟩
  | @snoc s t as a _ hlast ih =>
    obtain ⟨hrun, hprobes⟩ := ih fun b hb => hpeaceful b (List.mem_append_left _ hb)
    have hpeace := hpeaceful a (List.mem_append_right _ List.mem_cons_self)
    unfold loopTraceStep at hlast
    split at hlast
    · rename_i hguard
      obtain ⟨hstep, hmoved⟩ := Option.filter_eq_some_iff.mp hlast
      have hadmissible : s.Admissible a := by
        cases a with
        | call id sessionID ownerPid => exact hpeace
        | step id env =>
          refine ⟨fun _ _ _ _ => hpeace _, fun id worker hworker => ?_⟩
          rw [hprobes id worker hworker]
          exact (Option.some_ne_none _).symm
        | cancel sessionID reason env => exact fun _ _ _ _ => hpeace _
        | crash ownerPid | queue sessionID origin mutation => exact trivial
      refine ⟨Run.snoc hrun ⟨⟨hstep, hadmissible⟩, hguard⟩, fun other w hw => ?_⟩
      rcases loopStep_cases ⟨hstep, hadmissible⟩ with
        ⟨id, sessionID, ownerPid, pending, rfl, -, -, rfl⟩
        | ⟨id, env, worker, e, rfl, hworker, -, -, -, -, rfl⟩ | ⟨ownerPid, rfl, rfl⟩
        | ⟨sessionID, reason, env, rfl, -, rfl⟩ | ⟨sessionID, origin, mutation, queues, rfl, rfl⟩
      · by_cases heq : other = id
        · subst heq
          change Function.update s.workers other _ other = some w at hw
          rw [Function.update_self] at hw
          cases hw
          rfl
        · exact hprobes other w ((Function.update_of_ne heq _ _).symm.trans hw)
      · by_cases heq : other = id
        · subst heq
          simp only [LoopLabel.moved, Option.bind_some, hw, Option.all_some,
            Option.isNone_iff_eq_none] at hmoved
          exact hmoved
        · exact hprobes other w ((Function.update_of_ne heq _ _).symm.trans hw)
      · obtain ⟨worker, hworker, rfl⟩ := Option.map_eq_some_iff.mp hw
        have hnone := hprobes other worker hworker
        split <;> exact hnone
      · exact hprobes other w hw
      · exact hprobes other w hw
    · cases hlast

instance LoopLimits.decidableAdmit (limits : LoopLimits) (host : LoopHost) (s : LoopWorld)
    (a : LoopLabel) : Decidable (limits.Admit host s a) :=
  match a with
  | .step id env =>
    decidable_of_iff
      ((s.workers id).all (fun worker =>
        match worker.phase with
        | .reading event => decide (event.pullRequest worker.sessionID ∈ limits.pullRequests)
        | .performing call _ => !env.performer.performed
            || decide (call.action.digest host.sha256
              ∈ limits.digests (call.event.pullRequest worker.sessionID))
        | _ => true) = true)
      (by
        rw [Option.all_eq_true]
        refine forall_congr' fun worker => imp_congr_right fun _ => ?_
        cases worker.phase <;> simp [imp_iff_not_or])
  | .call _ _ _ | .crash _ | .cancel _ _ _ | .queue _ _ _ => isTrue trivial

instance CancelsAmong.decidable (stopped : List JsString) (a : LoopLabel) :
    Decidable (CancelsAmong stopped a) :=
  match a with
  | .cancel sessionID _ _ => inferInstanceAs (Decidable (sessionID ∈ stopped))
  | .call _ _ _ | .step _ _ | .crash _ | .queue _ _ _ => isTrue trivial

instance WithinLimits.decidable (host : LoopHost) (limits : LoopLimits) (stopped : List JsString)
    (s : LoopWorld) (a : LoopLabel) : Decidable (WithinLimits host limits stopped s a) :=
  inferInstanceAs (Decidable (_ ∧ _))

end OpencodeSwarm
