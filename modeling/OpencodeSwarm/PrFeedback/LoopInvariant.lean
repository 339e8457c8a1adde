/-
  OpencodeSwarm.PrFeedback.LoopInvariant

  What every reachable state of the PR-feedback loop satisfies.  A copy that a call
  carries is an earlier generation of its correlation or agrees with it, a
  reservation belongs to a call, and a call whose action runs holds a started
  reservation that nobody else can take.
-/
import OpencodeSwarm.PrFeedback.LoopFacts

namespace OpencodeSwarm

open Js

/-! ## Where a call stands -/

namespace LoopPhase

/-- The event, once its claim is held and the first `readState` succeeded. -/
def event : LoopPhase → Option PrFeedbackMonitorEvent
  | .claiming _ | .reading _ | .returned => none
  | .checking event _ _ | .evaluating event _ _ | .refusing event _ _ | .persisting event _
  | .abandoning event _ | .unclaiming event => some event
  | .admitting call | .barrier call | .sequencing call | .overseeing call | .denying call _
  | .approved call | .reserved call | .marking call | .started call _ | .performing call _
  | .acted call _ | .clearing call _ _ => some call.event

/-- The copy of the correlation that the call goes on with. -/
def copy : LoopPhase → Option CorrelationState
  | .claiming _ | .reading _ | .returned | .abandoning _ _ | .unclaiming _ => none
  | .checking _ _ correlation | .evaluating _ _ correlation | .refusing _ correlation _
  | .persisting _ correlation => some correlation
  | .admitting call | .barrier call | .sequencing call | .overseeing call | .denying call _
  | .approved call | .reserved call | .marking call | .started call _ | .performing call _
  | .acted call _ | .clearing call _ _ => some call.correlation

/-- The action start is durable and its result is not settled. -/
def acting : LoopPhase → Option LoopCall
  | .started call _ | .performing call _ | .acted call _ => some call
  | _ => none

/-- The call may still get to its performer, with the reservation it made. -/
def holding : LoopPhase → Option LoopCall
  | .reserved call | .marking call | .started call _ | .performing call _ => some call
  | _ => none

/-- The performer has not reported `performed`. -/
def beforeReport : LoopPhase → Bool
  | .refusing _ _ _ | .persisting _ _ | .abandoning _ _ | .unclaiming _ | .returned => false
  | .acted _ outcome => !outcome.performed
  | _ => true

end LoopPhase

/-! ## Limits -/

/-- The bounds of the loop's records: at most 200 correlations, and at most 64
    digests of performed actions for each. -/
structure LoopLimits where
  pullRequests : List LoopPullRequest
  digests : LoopPullRequest → List JsString
  pullRequests_le : pullRequests.length ≤ MAX_TRACKED_SESSIONS
  digests_le : ∀ pr, (digests pr).length ≤ MAX_PROCESSED_DIGESTS

/-- The label stays within the limits: the event a call takes is about one of the pull
    requests, and an action that is performed has one of the digests. -/
def LoopLimits.Admit (limits : LoopLimits) (host : LoopHost) (s : LoopWorld) : LoopLabel → Prop
  | .step id env => ∀ worker, s.workers id = some worker →
      match worker.phase with
      | .reading event => event.pullRequest worker.sessionID ∈ limits.pullRequests
      | .performing call _ => env.performer.performed = true →
          call.action.digest host.sha256
            ∈ limits.digests (call.event.pullRequest worker.sessionID)
      | _ => True
  | _ => True

/-- No two pull requests share a correlation key. -/
def LoopLimits.KeysDistinct (limits : LoopLimits) : Prop :=
  ∀ a ∈ limits.pullRequests, ∀ b ∈ limits.pullRequests, a.key = b.key → a = b

/-- Only sessions of the list are cancelled. -/
def CancelsAmong (stopped : List JsString) : LoopLabel → Prop
  | .cancel sessionID _ _ => sessionID ∈ stopped
  | _ => True

/-! ## The invariant -/

/-- What holds of the correlation of a pull request. -/
structure RecordOk (limits : LoopLimits) (workers : JsString → Option LoopWorker)
    (pr : LoopPullRequest) (p : CorrelationState) : Prop where
  pullRequest : p.pullRequest = pr
  digests_nodup : p.processedDigests.Nodup
  digests_mem : ∀ digest ∈ p.processedDigests, digest ∈ limits.digests pr
  settled : p.processedDigests ≠ [] → p.terminal.isSome
  owner : ∀ r, p.inFlight = some r → hasReservationIdentity r = true
    ∧ ∃ worker, workers r.workflowInstanceId = some worker ∧ worker.ownerPid = r.ownerPid

/-- What holds of a call. -/
structure WorkerOk (host : LoopHost) (limits : LoopLimits) (state : LoopState) (id : JsString)
    (worker : LoopWorker) : Prop where
  identity : trim id = id ∧ id ≠ [] ∧ 0 < worker.ownerPid
  event : ∀ event, worker.phase.event = some event →
    event.pullRequest worker.sessionID ∈ limits.pullRequests
  copy : ∀ event copy, worker.phase.event = some event → worker.phase.copy = some copy →
    copy.CopyOf (state.record (event.pullRequest worker.sessionID))
  acting : worker.crashed = false → ∀ call, worker.phase.acting = some call →
    ∃ r, (state.record (call.event.pullRequest worker.sessionID)).inFlight = some r
      ∧ r.workflowInstanceId = id ∧ r.actionStartedAt.isSome
  acted : ∀ call outcome, worker.phase = .acted call outcome → outcome.performed = true →
    call.action.digest host.sha256 ∈ limits.digests (call.event.pullRequest worker.sessionID)

/-- What every reachable world satisfies. -/
structure LoopInv (host : LoopHost) (limits : LoopLimits) (stopped : List JsString)
    (s : LoopWorld) : Prop where
  keys_nodup : s.state.correlations.keys.Nodup
  keys_mem : ∀ key ∈ s.state.correlations.keys, ∃ pr ∈ limits.pullRequests, pr.key = key
  terminals_nodup : s.state.sessionTerminals.keys.Nodup
  terminals_mem : ∀ sessionID ∈ s.state.sessionTerminals.keys, sessionID ∈ stopped
  records : ∀ pr ∈ limits.pullRequests, RecordOk limits s.workers pr (s.state.record pr)
  workers : ∀ id worker, s.workers id = some worker →
    WorkerOk host limits s.state id worker

/-! ## The document -/

section Document

variable {limits : LoopLimits} {state : LoopState} {pr other : LoopPullRequest}
  {q : CorrelationState}

theorem LoopState.record_put (hkeys : limits.KeysDistinct) (hpr : pr ∈ limits.pullRequests)
    (hother : other ∈ limits.pullRequests) :
    (state.put pr.key q).record other = if other = pr then q else state.record other := by
  unfold LoopState.record LoopState.put
  rw [OrderedMap.get?_set]
  by_cases hsame : other = pr
  · rw [if_pos hsame, if_pos (congrArg LoopPullRequest.key hsame)]
    rfl
  · rw [if_neg hsame, if_neg fun hkey => hsame (hkeys other hother pr hpr hkey)]

theorem LoopState.record_put_self (state : LoopState) (pr : LoopPullRequest)
    (q : CorrelationState) : (state.put pr.key q).record pr = q := by
  unfold LoopState.record LoopState.put
  rw [OrderedMap.get?_set, if_pos rfl]
  rfl

theorem LoopState.written_eq (hcorrelations : state.correlations.length ≤ MAX_TRACKED_SESSIONS)
    (hterminals : state.sessionTerminals.length ≤ MAX_TRACKED_SESSIONS) :
    state.written = state := by
  rw [LoopState.written, Nat.sub_eq_zero_of_le hcorrelations, Nat.sub_eq_zero_of_le hterminals]
  rfl

/-- A document whose keys are within the limits is written as it is. -/
theorem written_of_keys {stopped : List JsString} (hkeys : state.correlations.keys.Nodup)
    (hmem : ∀ key ∈ state.correlations.keys, ∃ pr ∈ limits.pullRequests, pr.key = key)
    (hterminals : state.sessionTerminals.keys.Nodup)
    (hstops : ∀ sessionID ∈ state.sessionTerminals.keys, sessionID ∈ stopped)
    (hstopped : stopped.length ≤ MAX_TRACKED_SESSIONS) : state.written = state := by
  refine LoopState.written_eq ?_ ((OrderedMap.length_le_of_keys hterminals hstops).trans hstopped)
  refine le_trans ?_ limits.pullRequests_le
  rw [← List.length_map LoopPullRequest.key]
  exact OrderedMap.length_le_of_keys hkeys fun key hkey => by
    obtain ⟨pr, hpr, rfl⟩ := hmem key hkey
    exact List.mem_map_of_mem hpr

end Document

section Invariant

variable {host : LoopHost} {limits : LoopLimits} {stopped : List JsString} {s : LoopWorld}

theorem LoopInv.written (h : LoopInv host limits stopped s)
    (hstopped : stopped.length ≤ MAX_TRACKED_SESSIONS) : s.state.written = s.state :=
  written_of_keys h.keys_nodup h.keys_mem h.terminals_nodup h.terminals_mem hstopped

/-- What a call knows in a phase with an event and a copy. -/
theorem WorkerOk.inPhase {state : LoopState} {id : JsString} {worker : LoopWorker}
    {phase : LoopPhase} {event : PrFeedbackMonitorEvent} {copy : CorrelationState}
    (h : WorkerOk host limits state id worker) (hphase : worker.phase = phase)
    (hevent : phase.event = some event) (hcopy : phase.copy = some copy) :
    worker.phase.event = some event ∧ event.pullRequest worker.sessionID ∈ limits.pullRequests
      ∧ ∀ known, some copy = some known →
        known.CopyOf (state.record (event.pullRequest worker.sessionID)) := by
  subst hphase
  refine ⟨hevent, h.event event hevent, ?_⟩
  rintro known ⟨⟩
  exact h.copy event copy hevent hcopy

theorem LoopInv.keys_put (h : LoopInv host limits stopped s) {pr : LoopPullRequest}
    (hpr : pr ∈ limits.pullRequests) (q : CorrelationState) :
    ∀ key ∈ (s.state.put pr.key q).correlations.keys, ∃ pr ∈ limits.pullRequests, pr.key = key := by
  intro key hkey
  rcases OrderedMap.mem_keys_set hkey with rfl | hold
  · exact ⟨pr, hpr, rfl⟩
  · exact h.keys_mem key hold

theorem LoopInv.written_put (h : LoopInv host limits stopped s)
    (hstopped : stopped.length ≤ MAX_TRACKED_SESSIONS) {pr : LoopPullRequest}
    (hpr : pr ∈ limits.pullRequests) (q : CorrelationState) :
    (s.state.put pr.key q).written = s.state.put pr.key q :=
  written_of_keys (OrderedMap.nodup_keys_set h.keys_nodup) (h.keys_put hpr q) h.terminals_nodup
    h.terminals_mem hstopped

end Invariant

/-! ## What a step of a call can do -/

/-- The documents have the same correlations and the same cancellations. -/
structure LoopState.Same (state next : LoopState) : Prop where
  correlations : next.correlations = state.correlations
  sessionTerminals : next.sessionTerminals = state.sessionTerminals

theorem LoopState.Same.refl (state : LoopState) : state.Same state := ⟨rfl, rfl⟩

theorem LoopState.Same.record {state next : LoopState} (h : state.Same next)
    (pr : LoopPullRequest) : next.record pr = state.record pr := by
  unfold LoopState.record
  rw [h.correlations]

theorem LoopState.Same.written {state next : LoopState} (h : state.Same next)
    (hwritten : state.written = state) : next.written = next := by
  have hcorrelations := congrArg LoopState.correlations hwritten
  have hterminals := congrArg LoopState.sessionTerminals hwritten
  simp only [LoopState.written] at hcorrelations hterminals
  obtain ⟨seq, correlations, terminals⟩ := next
  obtain rfl : correlations = state.correlations := h.correlations
  obtain rfl : terminals = state.sessionTerminals := h.sessionTerminals
  simp only [LoopState.written]
  rw [hcorrelations, hterminals]

/-- What a call keeps in a step.  A probe owner it draws is new. -/
structure SameCall (env : LoopEnv) (worker worker' : LoopWorker) : Prop where
  sessionID : worker'.sessionID = worker.sessionID
  ownerPid : worker'.ownerPid = worker.ownerPid
  crashed : worker'.crashed = worker.crashed
  probe : (worker'.probeOwnerToken = worker.probeOwnerToken
      ∧ worker'.probeOwnerPid = worker.probeOwnerPid)
    ∨ (worker'.probeOwnerToken = some env.randomUUID
      ∧ worker'.probeOwnerPid = some worker.ownerPid)

/-- What one step of a call does to the document and to the log. -/
inductive CallMove (host : LoopHost) (env : LoopEnv) (id : JsString) (worker : LoopWorker)
    (state : LoopState) (e : LoopEffect) : Prop where
  /-- Nothing. -/
  | quiet (hstate : state.Same e.state) (hlog : e.log = []) (hphase : e.worker.phase.acting = none)
  /-- A terminal, a circuit, or a reservation that never started. -/
  | moved (event : PrFeedbackMonitorEvent) (hevent : worker.phase.event = some event)
      (q : CorrelationState)
      (hmove : RecordMove (state.record (event.pullRequest worker.sessionID)) q)
      (hstate : e.state = state.put (event.pullRequest worker.sessionID).key q)
      (hlog : e.log = [] ∨ e.log = [.started worker.sessionID id]
        ∧ state.cancellation worker.sessionID = none)
      (hphase : e.worker.phase.acting = none)
  /-- The call takes its reservation back. -/
  | cleared (call : LoopCall) (startedAt : Option Int) (refusal : Option LoopTerminal)
      (hcall : worker.phase = .clearing call startedAt refusal) (q : CorrelationState)
      (hmove : ClearMove id (state.record (call.event.pullRequest worker.sessionID)) q)
      (hstate : e.state = state.put (call.event.pullRequest worker.sessionID).key q)
      (hlog : e.log = []) (hphase : e.worker.phase.acting = none)
  /-- The final admission. -/
  | reserved (call : LoopCall) (hcall : worker.phase = .approved call)
      (free q : CorrelationState)
      (hmove : ReserveMove env.isProcessAlive (call.reservation env id worker)
        (state.record (call.event.pullRequest worker.sessionID)) q)
      (hfree : free.inFlight = none
        ∧ free.prActionsUsed
            = (state.record (call.event.pullRequest worker.sessionID)).prActionsUsed
        ∧ free.pullRequest
            = (state.record (call.event.pullRequest worker.sessionID)).pullRequest)
      (hroom : HasRoom host.budget env.isProcessAlive
        (call.event.pullRequest worker.sessionID) state free)
      (hcancel : state.cancellation worker.sessionID = none)
      (hstate : e.state = state.put (call.event.pullRequest worker.sessionID).key q)
      (hlog : e.log = []) (hphase : e.worker.phase.acting = none)
  /-- The action-start marker. -/
  | marked (call : LoopCall) (hcall : worker.phase = .marking call) (q : CorrelationState)
      (hmove : MarkMove id worker.ownerPid env.now
        (state.record (call.event.pullRequest worker.sessionID)) q)
      (hcancel : state.cancellation worker.sessionID = none)
      (hstate : e.state = state.put (call.event.pullRequest worker.sessionID).key q)
      (hlog : e.log = [.started worker.sessionID id])
      (hphase : e.worker.phase.acting = none
        ∨ e.worker.phase = .started { call with correlation := q } env.now)
  | begins (call : LoopCall) (startedAt : Int) (hcall : worker.phase = .started call startedAt)
      (hstate : e.state = state) (hlog : e.log = [])
      (hphase : e.worker.phase = .performing call 0)
  /-- The performer answers. -/
  | performs (call : LoopCall) (attempt : Nat) (hcall : worker.phase = .performing call attempt)
      (hstate : e.state = state)
      (hlog : e.log =
        if env.performer.performed then [.performed worker.sessionID call.action id] else [])
      (hphase : e.worker.phase = .acted call env.performer
        ∨ (env.performer.performed = false ∧ e.worker.phase = .performing call (attempt + 1)))
  /-- The settlement. -/
  | settled (call : LoopCall) (outcome : PerformOutcome)
    (hcall : worker.phase = .acted call outcome)
      (q : CorrelationState)
      (hmove : SettleMove id worker.ownerPid outcome.performed (call.action.digest host.sha256)
        (state.record (call.event.pullRequest worker.sessionID)) q)
      (hstate : e.state = state.put (call.event.pullRequest worker.sessionID).key q)
      (hlog : e.log = []) (hphase : e.worker.phase.acting = none)

/-- What a call knows behind a step, and where it may have come from. -/
structure CallKnows (limits : LoopLimits) (worker : LoopWorker) (e : LoopEffect) : Prop where
  event : ∀ event, e.worker.phase.event = some event →
    event.pullRequest worker.sessionID ∈ limits.pullRequests
  copy : ∀ event copy, e.worker.phase.event = some event → e.worker.phase.copy = some copy →
    copy.CopyOf (e.state.record (event.pullRequest worker.sessionID))
  order : e.worker.phase.beforeReport = true → worker.phase.beforeReport = true
  holding : ∀ call, e.worker.phase.holding = some call → ∃ earlier,
    (worker.phase = .approved earlier ∨ worker.phase.holding = some earlier)
      ∧ earlier.event = call.event ∧ earlier.head = call.head

structure CallStep (host : LoopHost) (limits : LoopLimits) (env : LoopEnv) (id : JsString)
    (worker : LoopWorker) (state : LoopState) (e : LoopEffect) : Prop where
  same : SameCall env worker e.worker
  knows : CallKnows limits worker e
  move : CallMove host env id worker state e

/-! ## The steps of a call -/

/-- A phase whose call does nothing any more but clean up. -/
def LoopPhase.Ends : LoopPhase → Prop
  | .refusing _ _ _ | .persisting _ _ | .abandoning _ _ | .unclaiming _ | .returned => True
  | _ => False

theorem LoopPhase.Ends.facts {phase : LoopPhase} (h : phase.Ends) :
    phase.acting = none ∧ phase.beforeReport = false ∧ phase.holding = none := by
  cases phase <;> first | exact ⟨rfl, rfl, rfl⟩ | exact h.elim

theorem RecordMove.books {p q : CorrelationState} (h : RecordMove p q) : p.SameBooks q := by
  cases h with
  | kept books _ => exact books
  | dropped books _ _ => exact books

section Steps

variable {host : LoopHost} {limits : LoopLimits} {stopped : List JsString} {s : LoopWorld}
  {env : LoopEnv} {id : JsString} {worker : LoopWorker} {queue : Option PrFeedbackQueueRecord}

theorem SameCall.refl (env : LoopEnv) (worker : LoopWorker) : SameCall env worker worker :=
  ⟨rfl, rfl, rfl, Or.inl ⟨rfl, rfl⟩⟩

/-- The document behind a lock, when the section puts one correlation back. -/
theorem LoopInv.locked (h : LoopInv host limits stopped s)
    (hstopped : stopped.length ≤ MAX_TRACKED_SESSIONS) {pr : LoopPullRequest}
    (hpr : pr ∈ limits.pullRequests) {α : Type} {fault : LoopFault} {onCorrupt : Option α}
    {section_ : LoopState → Option LoopState × Option α} {move : CorrelationState → Prop}
    (hsection : ∀ next, (section_ s.state).1 = some next →
      ∃ q, next = s.state.put pr.key q ∧ move q) :
    (withLoopStateLock fault s.state onCorrupt section_).1 = s.state ∨ ∃ q, move q
          ∧ (withLoopStateLock fault s.state onCorrupt section_).1 = s.state.put pr.key q := by
  rcases @withLoopStateLock_cases α fault s.state onCorrupt section_ with hsame | ⟨next, hnext, heq⟩
  · exact Or.inl hsame
  · obtain ⟨q, rfl, hmove⟩ := hsection next hnext
    exact Or.inr ⟨q, hmove, heq.trans (h.written_put hstopped hpr q)⟩

variable {phase : LoopPhase}

theorem CallStep.idles (hacting : phase.acting = none) (hevent : ∀ event, phase.event = some event →
      event.pullRequest worker.sessionID ∈ limits.pullRequests)
    (hcopy : ∀ event copy, phase.event = some event → phase.copy = some copy →
      copy.CopyOf (s.state.record (event.pullRequest worker.sessionID)))
    (horder : phase.beforeReport = true → worker.phase.beforeReport = true)
    (hholding : phase.holding = none ∨ phase.holding = worker.phase.holding) :
    CallStep host limits env id worker s.state (goesOn worker s.state queue phase) where
  same := ⟨rfl, rfl, rfl, Or.inl ⟨rfl, rfl⟩⟩
  knows :=
    { event := hevent
      copy := hcopy
      order := horder
      holding := by
        intro call hcall
        have hphase : phase.holding = some call := hcall
        rcases hholding with hnone | hsame
        · rw [hnone] at hphase
          cases hphase
        · exact ⟨call, Or.inr (hsame.symm.trans hphase), rfl, rfl⟩ }
  move := .quiet (.refl _) rfl hacting

/-- A section that moves the correlation of the call's event, or leaves it. -/
theorem CallStep.goes {event : PrFeedbackMonitorEvent} {worker' : LoopWorker} {state : LoopState}
    (hevent : worker.phase.event = some event)
    (hpr : event.pullRequest worker.sessionID ∈ limits.pullRequests)
    (hsame : SameCall env worker worker') (hacting : phase.acting = none)
    (horder : phase.beforeReport = true → worker.phase.beforeReport = true)
    (hholding : phase.holding = none) (hphase : phase.event = none ∨ phase.event = some event)
    (hcopy : ∀ copy, phase.copy = some copy →
      copy.CopyOf (state.record (event.pullRequest worker.sessionID))) (hstate : s.state.Same state
      ∨ ∃ q, RecordMove (s.state.record (event.pullRequest worker.sessionID)) q
          ∧ state = s.state.put (event.pullRequest worker.sessionID).key q) :
    CallStep host limits env id worker s.state (goesOn worker' state queue phase) := by
  refine ⟨⟨hsame.sessionID, hsame.ownerPid, hsame.crashed, hsame.probe⟩, ⟨?_, ?_, horder, ?_⟩, ?_⟩
  · intro other hother
    rcases hphase with hnone | hsome
    · rw [show phase.event = some other from hother] at hnone
      cases hnone
    · rw [show phase.event = some other from hother] at hsome
      cases hsome
      exact hpr
  · intro other copy hother hcopy'
    rcases hphase with hnone | hsome
    · rw [show phase.event = some other from hother] at hnone
      cases hnone
    · rw [show phase.event = some other from hother] at hsome
      cases hsome
      exact hcopy copy hcopy'
  · intro call hcall
    rw [show phase.holding = some call from hcall] at hholding
    cases hholding
  · rcases hstate with hsame' | ⟨q, hmove, rfl⟩
    · exact .quiet hsame' rfl hacting
    · exact .moved event hevent q hmove rfl (Or.inl rfl) hacting

theorem CallStep.ends {event : PrFeedbackMonitorEvent} {worker' : LoopWorker} {state : LoopState}
    (hevent : worker.phase.event = some event)
    (hpr : event.pullRequest worker.sessionID ∈ limits.pullRequests)
    (hsame : SameCall env worker worker') (hends : phase.Ends)
    (hphase : phase.event = none ∨ phase.event = some event)
    (hcopy : ∀ copy, phase.copy = some copy →
      copy.CopyOf (state.record (event.pullRequest worker.sessionID))) (hstate : s.state.Same state
      ∨ ∃ q, RecordMove (s.state.record (event.pullRequest worker.sessionID)) q
          ∧ state = s.state.put (event.pullRequest worker.sessionID).key q) :
    CallStep host limits env id worker s.state (goesOn worker' state queue phase) := by
  obtain ⟨hacting, hreport, hholding⟩ := hends.facts
  refine CallStep.goes hevent hpr hsame hacting (fun h => ?_) hholding hphase hcopy hstate
  rw [h] at hreport
  cases hreport

end Steps

end OpencodeSwarm
