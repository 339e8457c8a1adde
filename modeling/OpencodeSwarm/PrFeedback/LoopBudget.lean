/-
  OpencodeSwarm.PrFeedback.LoopBudget

  Budgets, stops, reservations and probes of the PR-feedback loop.  The caps
  count settled actions and live reservations; a stop that is durable is never
  followed by an action start; a started reservation is its owner's; and a probe
  marker has one live owner.
-/
import Mathlib.Algebra.Order.BigOperators.Group.List
import Mathlib.Algebra.Order.Group.Nat
import OpencodeSwarm.PrFeedback.ActionOnce

namespace OpencodeSwarm

open Js Transition

/-! ## What the caps count -/

/-- The call that made the reservation still runs. -/
def LoopWorld.ownerRuns (s : LoopWorld) (r : InFlightClaim) : Bool :=
  (s.workers r.workflowInstanceId).any fun worker => !worker.crashed

/-- The reservation counts: its action started, or its owner may still start it. -/
def LoopWorld.reservationLive (s : LoopWorld) (p : CorrelationState) : Bool :=
  p.inFlight.any fun r => r.actionStartedAt.isSome || s.ownerRuns r

/-- Settled actions and the live reservation of a correlation. -/
def LoopWorld.load (s : LoopWorld) (p : CorrelationState) : Nat :=
  p.prActionsUsed + (s.reservationLive p).toNat

/-- The share of a correlation in the load of a session. -/
def LoopWorld.share (s : LoopWorld) (sessionID : JsString) (p : CorrelationState) : Nat :=
  if p.sessionID = sessionID then s.load p else 0

/-- Settled actions and live reservations of a session. -/
def LoopWorld.sessionLoad (s : LoopWorld) (sessionID : JsString) : Nat :=
  (s.state.correlations.values.map (s.share sessionID)).sum

/-- The call holds the half-open probe marker of a correlation. -/
def LoopWorker.HoldsProbe (worker : LoopWorker) (p : CorrelationState) : Prop :=
  1 ≤ p.circuit.halfOpenProbes
    ∧ p.circuit.halfOpenProbeOwnerPid = some worker.ownerPid
    ∧ ∃ token, worker.probeOwnerToken = some token
        ∧ p.circuit.halfOpenProbeOwnerToken = some token

/-! ## What holds in every state, and of every step -/

/-- An action start of a session that was cancelled before. -/
def LoopRecord.StartsStopped (earlier later : LoopRecord) : Prop :=
  ∃ sessionID id, earlier = .cancelled sessionID ∧ later = .started sessionID id

/-- Caps, stops and probes in one state. -/
structure LoopWorld.InOrder (host : LoopHost) (s : LoopWorld) : Prop where
  perPr : ∀ p ∈ s.state.correlations.values, s.load p ≤ host.budget.maxActionsPerPr
  perSession : ∀ sessionID, s.sessionLoad sessionID ≤ host.budget.maxSessionActions
  stops : s.log.Pairwise fun earlier later => ¬ earlier.StartsStopped later
  probes : ∀ p ∈ s.state.correlations.values, ∀ id worker id' worker',
    s.workers id = some worker → s.workers id' = some worker' →
    worker.HoldsProbe p → worker'.HoldsProbe p → id = id'

/-- A started reservation stays, unless its exact owner settles or clears it, or an
    operator stop finds the owner dead. -/
def OwnersSettle (s : LoopWorld) (a : LoopLabel) (t : LoopWorld) : Prop :=
  ∀ key p r, s.state.correlations.get? key = some p → p.inFlight = some r →
    r.actionStartedAt.isSome →
    (∃ q, t.state.correlations.get? key = some q ∧ q.inFlight = some r
        ∧ q.prActionsUsed = p.prActionsUsed ∧ q.processedDigests = p.processedDigests)
      ∨ (∃ env worker, a = .step r.workflowInstanceId env
        ∧ s.workers r.workflowInstanceId = some worker ∧ worker.ownerPid = r.ownerPid)
      ∨ ∃ sessionID reason env, a = .cancel sessionID reason env
          ∧ env.isProcessAlive r.ownerPid = false

/-- A call becomes the owner of a probe only when no other live call holds the marker
    that it takes. -/
def ProbesTakeTurns (s : LoopWorld) (a : LoopLabel) (t : LoopWorld) : Prop :=
  ∀ id env worker worker', a = .step id env → s.workers id = some worker →
    t.workers id = some worker' → worker'.probeOwnerToken ≠ worker.probeOwnerToken →
    ∃ call, worker.phase = .admitting call
      ∧ ∀ other w, s.workers other = some w → w.crashed = false →
          ¬ w.HoldsProbe (s.state.record (call.event.pullRequest worker.sessionID))

/-! ## The load of a correlation -/

section Load

variable {host : LoopHost} {limits : LoopLimits} {stopped : List JsString} {s t : LoopWorld}
  {p : CorrelationState}

theorem LoopWorld.load_of_none (s : LoopWorld) (h : p.inFlight = none) :
    s.load p = p.prActionsUsed := by
  simp [LoopWorld.load, LoopWorld.reservationLive, h]

theorem LoopWorld.load_le (s : LoopWorld) (p : CorrelationState) :
    s.load p ≤ p.prActionsUsed + 1 :=
  Nat.add_le_add_left (Bool.toNat_le _) _

theorem LoopWorld.load_of_live (s : LoopWorld) {r : InFlightClaim} (hr : p.inFlight = some r)
    (hlive : r.actionStartedAt.isSome ∨ s.ownerRuns r = true) : s.load p = p.prActionsUsed + 1 := by
  have hone : s.reservationLive p = true := by
    rw [LoopWorld.reservationLive, hr, Option.any_some, Bool.or_eq_true]
    exact hlive
  rw [LoopWorld.load, hone]
  rfl

variable {q : CorrelationState}

/-- The load depends on counter, reservation and the calls that run. -/
theorem LoopWorld.load_mono (hused : q.prActionsUsed = p.prActionsUsed)
    (hinFlight : ∀ r, q.inFlight = some r → p.inFlight = some r
      ∧ (t.ownerRuns r = true → s.ownerRuns r = true)) : t.load q ≤ s.load p := by
  unfold LoopWorld.load LoopWorld.reservationLive
  rw [hused]
  refine Nat.add_le_add_left (Bool.toNat_le_toNat fun hlive => ?_) _
  obtain ⟨r, hr, hcounts⟩ := (Option.any_eq_true _ _).mp hlive
  obtain ⟨hp, hruns⟩ := hinFlight r hr
  rw [hp, Option.any_some, Bool.or_eq_true]
  exact ((Bool.or_eq_true _ _).mp hcounts).imp id hruns

/-- What runs behind a step of a call ran before, and the other way round. -/
theorem LoopWorld.ownerRuns_after {id : JsString} {worker : LoopWorker} {e : LoopEffect}
    (hworker : s.workers id = some worker) (hcrashed : e.worker.crashed = worker.crashed)
    (r : InFlightClaim) : (s.after id e).ownerRuns r = s.ownerRuns r := by
  unfold LoopWorld.ownerRuns
  by_cases hid : r.workflowInstanceId = id
  · rw [hid, hworker, show (s.after id e).workers id = some e.worker from Function.update_self ..]
    simp [hcrashed]
  · rw [show (s.after id e).workers r.workflowInstanceId = s.workers r.workflowInstanceId from
      Function.update_of_ne hid _ _]

theorem LoopWorld.share_le (s : LoopWorld) (sessionID : JsString) (p : CorrelationState) :
    s.share sessionID p ≤ s.load p := by
  unfold LoopWorld.share
  split
  · exact Nat.le_refl _
  · exact Nat.zero_le _

theorem LoopWorld.share_mono (hsession : q.sessionID = p.sessionID) (hload : t.load q ≤ s.load p)
    (sessionID : JsString) : t.share sessionID q ≤ s.share sessionID p := by
  unfold LoopWorld.share
  rw [hsession]
  split
  · exact hload
  · exact Nat.le_refl _

/-- Every correlation of the document is the record of its pull request. -/
theorem LoopInv.record_of_value (h : LoopInv host limits stopped s)
    (hp : p ∈ s.state.correlations.values) : ∃ pr ∈ limits.pullRequests, s.state.record pr = p := by
  obtain ⟨⟨key, p⟩, hentry, rfl⟩ := List.mem_map.mp hp
  obtain ⟨pr, hpr, rfl⟩ := h.keys_mem key (List.mem_map_of_mem hentry)
  exact ⟨pr, hpr, LoopState.record_of_some (OrderedMap.get?_of_mem h.keys_nodup hentry)⟩

theorem sum_put (state : LoopState) (pr : LoopPullRequest) (q : CorrelationState)
    (f : CorrelationState → Nat) (hfresh : f pr.fresh = 0) :
    ((state.put pr.key q).correlations.values.map f).sum + f (state.record pr)
      = (state.correlations.values.map f).sum + f q := by
  have hset := OrderedMap.sum_values_set state.correlations pr.key q f
  have hold : ((state.correlations.get? pr.key).map f).getD 0 = f (state.record pr) := by
    cases hget : state.correlations.get? pr.key with
    | none => rw [LoopState.record_of_none hget, hfresh, Option.map_none, Option.getD_none]
    | some p => rw [LoopState.record_of_some hget, Option.map_some, Option.getD_some]
  rw [← hold]
  exact hset

/-- What a session really uses is at most what the final admission counts. -/
theorem sessionLoad_le_counted {isProcessAlive : Nat → Bool} {state : LoopState}
    {sessionID : JsString} (hlive : ∀ p ∈ state.correlations.values,
      s.reservationLive p = true → reservationIsLive isProcessAlive p.inFlight = true) :
    (state.correlations.values.map (s.share sessionID)).sum ≤ state.sessionActionsUsed sessionID
        + state.liveSessionReservations isProcessAlive sessionID := by
  unfold LoopState.sessionActionsUsed LoopState.liveSessionReservations
  generalize state.correlations.values = values at hlive
  induction values with
  | nil => exact Nat.le_refl 0
  | cons p rest ih =>
    have hrest := ih fun q hq => hlive q (List.mem_cons_of_mem _ hq)
    have hfirst := hlive p List.mem_cons_self
    rw [List.map_cons, List.sum_cons, List.countP_cons]
    by_cases hsession : p.sessionID = sessionID
    · have hload : s.load p ≤ p.prActionsUsed
          + (reservationIsLive isProcessAlive p.inFlight).toNat :=
        Nat.add_le_add_left (Bool.toNat_le_toNat hfirst) _
      rw [List.filter_cons_of_pos (by simpa using hsession), List.map_cons, List.sum_cons,
        LoopWorld.share, if_pos hsession]
      simp only [hsession, decide_true, Bool.and_true]
      cases hprobe : reservationIsLive isProcessAlive p.inFlight <;>
        simp only [hprobe, Bool.toNat_false, Bool.toNat_true] at hload ⊢ <;> simp <;> omega
    · rw [List.filter_cons_of_neg (by simpa using hsession), LoopWorld.share, if_neg hsession]
      simp only [hsession, decide_false, Bool.and_false]
      simpa using hrest

end Load

/-! ## The steps of a call -/

section Steps

variable {host : LoopHost} {limits : LoopLimits} {stopped : List JsString} {s t : LoopWorld}
  {id : JsString} {env : LoopEnv} {worker : LoopWorker} {e : LoopEffect}

/-- The load of the correlation that a step puts back does not grow, or the final
    admission found room for it. -/
theorem CallMove.load (hworker : s.workers id = some worker) (hcrashed : worker.crashed = false)
    (hsame : SameCall env worker e.worker) (hmove : CallMove host env id worker s.state e) :
    s.state.Same e.state ∨ ∃ event q, worker.phase.event = some event
          ∧ e.state = s.state.put (event.pullRequest worker.sessionID).key q
          ∧ q.pullRequest = (s.state.record (event.pullRequest worker.sessionID)).pullRequest
          ∧ ((s.after id e).load q ≤ s.load (s.state.record (event.pullRequest worker.sessionID))
            ∨ ∃ free : CorrelationState, free.inFlight = none ∧ free.prActionsUsed = q.prActionsUsed
                ∧ free.pullRequest = q.pullRequest
                ∧ HasRoom host.budget env.isProcessAlive (event.pullRequest worker.sessionID)
                    s.state free) := by
  have hruns : ∀ r, (s.after id e).ownerRuns r = true → s.ownerRuns r = true := fun r hr => by
    rwa [LoopWorld.ownerRuns_after hworker hsame.crashed] at hr
  have howner : ∀ r : InFlightClaim, r.workflowInstanceId = id → s.ownerRuns r = true := by
    intro r hown
    rw [LoopWorld.ownerRuns, hown, hworker, Option.any_some, hcrashed]
    rfl
  -- a correlation without a reservation counts its settled actions alone
  have hdropped : ∀ p q : CorrelationState, p.SameBooks q → q.inFlight = none →
      (s.after id e).load q ≤ s.load p := by
    intro p q books hnone
    rw [LoopWorld.load_of_none _ hnone, books.prActionsUsed]
    exact Nat.le_add_right _ _
  obtain hstate | ⟨event, q, hevent, hstate, hchange⟩ := hmove.document
  · exact Or.inl hstate
  refine Or.inr ⟨event, q, hevent, hstate, hchange.precedes.pullRequest, ?_⟩
  cases hchange with
  | moved hmove =>
    left
    cases hmove with
    | kept books hkept =>
      exact LoopWorld.load_mono books.prActionsUsed fun r hr => ⟨hkept ▸ hr, hruns r⟩
    | dropped books hnone _ => exact hdropped _ _ books hnone
  | cleared _ _ _ _ hmove => exact Or.inl (hdropped _ _ hmove.books hmove.inFlight)
  | reserved _ _ free hmove hfree hroom _ =>
    obtain ⟨hnone, hused, hpr⟩ := hfree
    exact Or.inr ⟨free, hnone, hused.trans hmove.books.prActionsUsed.symm,
      hpr.trans hmove.books.pullRequest.symm, hroom⟩
  | marked _ _ hmove =>
    left
    obtain ⟨r, hr, hown, -, -⟩ := hmove.reservation
    rw [s.load_of_live hr (Or.inr (howner r hown.workflowInstanceId)), ← hmove.books.prActionsUsed]
    exact LoopWorld.load_le _ q
  | settled _ _ _ _ hmove =>
    left
    obtain ⟨r, hr, hown⟩ := hmove.reservation
    rw [s.load_of_live hr (Or.inr (howner r hown.workflowInstanceId)),
      LoopWorld.load_of_none _ hmove.inFlight]
    exact hmove.prActionsUsed

/-- The probe of a live process finds every reservation that really counts. -/
theorem reservationIsLive_of_live (hsound : s.LivenessSound env) {p : CorrelationState}
    (howner : ∀ r, p.inFlight = some r → ∃ worker, s.workers r.workflowInstanceId = some worker
      ∧ worker.ownerPid = r.ownerPid) (hlive : s.reservationLive p = true) :
    reservationIsLive env.isProcessAlive p.inFlight = true := by
  obtain ⟨r, hr, hcounts⟩ := (Option.any_eq_true _ _).mp hlive
  rw [hr]
  rcases (Bool.or_eq_true _ _).mp hcounts with hstarted | hruns
  · exact reservationIsLive_of_started hstarted
  · obtain ⟨worker, hworker, hpid⟩ := howner r hr
    rw [LoopWorld.ownerRuns, hworker, Option.any_some, Bool.not_eq_true'] at hruns
    have halive := hsound _ worker hworker hruns
    rw [hpid] at halive
    simp [reservationIsLive, halive]

/-! ## The invariant -/

/-- Caps, stops and probe owners in a reachable world. -/
structure OrderInv (host : LoopHost) (limits : LoopLimits) (s : LoopWorld) : Prop where
  perPr : ∀ pr ∈ limits.pullRequests,
    s.load (s.state.record pr) ≤ host.budget.maxActionsPerPr
  perSession : ∀ sessionID, s.sessionLoad sessionID ≤ host.budget.maxSessionActions
  cancelled : ∀ sessionID, .cancelled sessionID ∈ s.log → s.state.cancellation sessionID ≠ none
  stops : s.log.Pairwise fun earlier later => ¬ earlier.StartsStopped later
  tokens : ∀ id worker id' worker' token, s.workers id = some worker →
    s.workers id' = some worker' → worker.probeOwnerToken = some token →
    worker'.probeOwnerToken = some token → id = id'

/-- Nothing counts more than before in a world where every correlation counts at most
    what it did. -/
theorem OrderInv.perSession_mono (hinv : OrderInv host limits s)
    {f : CorrelationState → CorrelationState}
    (hvalues : t.state.correlations.values = s.state.correlations.values.map f)
    (hshare : ∀ p ∈ s.state.correlations.values, ∀ sessionID,
      t.share sessionID (f p) ≤ s.share sessionID p) (sessionID : JsString) :
    t.sessionLoad sessionID ≤ host.budget.maxSessionActions := by
  refine le_trans ?_ (hinv.perSession sessionID)
  rw [LoopWorld.sessionLoad, hvalues, List.map_map]
  exact List.sum_le_sum fun p hp => hshare p hp sessionID

theorem LoopWorld.share_fresh (s : LoopWorld) (sessionID : JsString) (pr : LoopPullRequest) :
    s.share sessionID pr.fresh = 0 :=
  Nat.le_zero.mp (s.share_le sessionID pr.fresh)

theorem OrderInv.step_caps (hinv : OrderInv host limits s) (h : LoopInv host limits stopped s)
    (hkeys : limits.KeysDistinct) (hworker : s.workers id = some worker)
    (hcrashed : worker.crashed = false) (hsound : s.LivenessSound env)
    (hcall : CallStep host limits env id worker s.state e) :
    (∀ pr ∈ limits.pullRequests,
        (s.after id e).load ((s.after id e).state.record pr) ≤ host.budget.maxActionsPerPr)
      ∧ ∀ sessionID, (s.after id e).sessionLoad sessionID ≤ host.budget.maxSessionActions := by
  have hok := h.workers id worker hworker
  have hruns := LoopWorld.ownerRuns_after hworker hcall.same.crashed
  have hload : (s.after id e).load = s.load := by
    funext p
    simp [LoopWorld.load, LoopWorld.reservationLive, hruns]
  have hshare : (s.after id e).share = s.share := by
    funext sessionID p
    simp [LoopWorld.share, hload]
  rcases hcall.move.load hworker hcrashed hcall.same with hstate | ⟨event, q, hevent, hstate, hpr, hq⟩
  · constructor
    · intro pr hpr
      rw [hload, show (s.after id e).state.record pr = s.state.record pr from hstate.record pr]
      exact hinv.perPr pr hpr
    · intro sessionID
      rw [LoopWorld.sessionLoad, hshare,
        show (s.after id e).state.correlations = s.state.correlations from hstate.correlations]
      exact hinv.perSession sessionID
  · have hmem := hok.event event hevent
    have hrecord := (h.records _ hmem).pullRequest
    rw [hload] at hq
    constructor
    · intro pr hpr
      rw [hload, show (s.after id e).state = _ from hstate, LoopState.record_put hkeys hmem hpr]
      split
      · rcases hq with hle | ⟨free, -, hused, -, hroom⟩
        · exact hle.trans (hinv.perPr _ hmem)
        · exact (s.load_le q).trans (hused ▸ hroom.2)
      · exact hinv.perPr pr hpr
    · intro sessionID
      rw [LoopWorld.sessionLoad, hshare, show (s.after id e).state = _ from hstate]
      have hsum := sum_put s.state (event.pullRequest worker.sessionID) q (s.share sessionID)
        (s.share_fresh sessionID _)
      have hsession := congrArg LoopPullRequest.sessionID hpr
      have hbefore := hinv.perSession sessionID
      unfold LoopWorld.sessionLoad at hbefore
      rcases hq with hle | ⟨free, hnone, hused, hfree, hroom⟩
      · have hsharing := LoopWorld.share_mono hsession hle sessionID
        omega
      · have hfreeSum := sum_put s.state (event.pullRequest worker.sessionID) free
          (s.share sessionID) (s.share_fresh sessionID _)
        by_cases hown : sessionID = worker.sessionID
        · -- the room that was found covers the new reservation
          subst hown
          have hcounted := @sessionLoad_le_counted s env.isProcessAlive
            (s.state.put (event.pullRequest worker.sessionID).key free) worker.sessionID
            fun p hp hlive => reservationIsLive_of_live hsound (fun r hr => by
              obtain ⟨entry, hentry, rfl⟩ := List.mem_map.mp hp
              rcases OrderedMap.mem_set hentry with rfl | hold
              · rw [hnone] at hr
                cases hr
              · obtain ⟨pr, hpr, heq⟩ := h.record_of_value (List.mem_map_of_mem hold)
                exact ((h.records pr hpr).owner r (heq ▸ hr)).2) hlive
          have hroom' := hroom.1
          have hqShare : s.share worker.sessionID q ≤ q.prActionsUsed + 1 :=
            (s.share_le _ q).trans (s.load_le q)
          have hfreeShare : s.share worker.sessionID free = q.prActionsUsed := by
            have hsessionFree : free.sessionID = worker.sessionID :=
              (congrArg LoopPullRequest.sessionID (hfree.trans hpr)).trans
                (congrArg LoopPullRequest.sessionID hrecord)
            rw [LoopWorld.share, if_pos hsessionFree, s.load_of_none hnone, hused]
          have hlt : ((s.state.put (event.pullRequest worker.sessionID).key free).correlations.values.map
              (s.share worker.sessionID)).sum < host.budget.maxSessionActions :=
            lt_of_le_of_lt hcounted hroom'
          omega
        · -- a correlation of another session
          have hother : s.share sessionID q = 0 := by
            have hsessionQ : q.sessionID = worker.sessionID :=
              hsession.trans (congrArg LoopPullRequest.sessionID hrecord)
            rw [LoopWorld.share, if_neg fun heq => hown (heq.symm.trans hsessionQ)]
          omega

variable {sessionID : JsString}

/-- An action start in the log of a step finds its session not cancelled. -/
theorem CallMove.started_log (hmove : CallMove host env id worker s.state e) {id' : JsString}
    (hstarted : .started sessionID id' ∈ e.log) : s.state.cancellation sessionID = none := by
  rcases hmove.log_cases with hlog | ⟨hlog, hcancel⟩ | ⟨_, _, -, -, -, -, hlog⟩
  · rw [hlog] at hstarted
    cases hstarted
  · rw [hlog] at hstarted
    cases List.mem_singleton.mp hstarted
    exact hcancel
  · rw [hlog] at hstarted
    cases List.mem_singleton.mp hstarted

theorem CallMove.log_spec (hmove : CallMove host env id worker s.state e) :
    (∀ related, e.log.Pairwise related) ∧ ∀ sessionID, .cancelled sessionID ∉ e.log := by
  rcases hmove.log_cases with hlog | ⟨hlog, -⟩ | ⟨_, _, -, -, -, -, hlog⟩ <;> rw [hlog] <;> simp

theorem OrderInv.step (hinv : OrderInv host limits s) (h : LoopInv host limits stopped s)
    (hkeys : limits.KeysDistinct) (hworker : s.workers id = some worker)
    (hcrashed : worker.crashed = false) (hsound : s.LivenessSound env) (hfresh : s.FreshToken env)
    (hcall : CallStep host limits env id worker s.state e) :
    OrderInv host limits (s.after id e) := by
  obtain ⟨hperPr, hperSession⟩ := hinv.step_caps h hkeys hworker hcrashed hsound hcall
  refine
    { perPr := hperPr
      perSession := hperSession
      cancelled := ?_
      stops := ?_
      tokens := ?_ }
  · intro sessionID hlog
    show e.state.cancellation sessionID ≠ none
    rw [hcall.move.cancellation]
    rcases List.mem_append.mp hlog with hold | hnew
    · exact hinv.cancelled sessionID hold
    · exact absurd hnew (hcall.move.log_spec.2 sessionID)
  · refine List.pairwise_append.mpr ⟨hinv.stops, ?_, ?_⟩
    · exact hcall.move.log_spec.1 _
    · rintro earlier hearlier later hlater ⟨sessionID, id', rfl, rfl⟩
      exact hinv.cancelled sessionID hearlier (hcall.move.started_log hlater)
  · -- a token that another call has is an old one
    have hother : ∀ other w token, other ≠ id → (s.after id e).workers other = some w →
        w.probeOwnerToken = some token → e.worker.probeOwnerToken = some token →
        other = id := by
      intro other w token hne hw htoken hmine
      have hw' : s.workers other = some w := (Function.update_of_ne hne _ _).symm.trans hw
      rcases hcall.same.probe with ⟨hsame, -⟩ | ⟨hdrawn, -⟩
      · exact hinv.tokens other w id worker token hw' hworker htoken (hsame.symm.trans hmine)
      · rw [hdrawn] at hmine
        exact absurd (htoken.trans hmine.symm) (hfresh other w hw')
    have hself : (s.after id e).workers id = some e.worker := Function.update_self ..
    intro a w a' w' token hw hw' htoken htoken'
    by_cases ha : a = id
    · by_cases ha' : a' = id
      · exact ha.trans ha'.symm
      · subst ha
        cases hself.symm.trans hw
        exact (hother a' w' token ha' hw' htoken' htoken).symm
    · by_cases ha' : a' = id
      · subst ha'
        cases hself.symm.trans hw'
        exact hother a w token ha hw htoken htoken'
      · exact hinv.tokens a w a' w' token ((Function.update_of_ne ha _ _).symm.trans hw)
          ((Function.update_of_ne ha' _ _).symm.trans hw') htoken htoken'

/-! ## The other steps -/

theorem OrderInv.cancel (hinv : OrderInv host limits s) (h : LoopInv host limits stopped s)
    (hstopped : stopped.length ≤ MAX_TRACKED_SESSIONS) {reason : JsString}
    (hmem : sessionID ∈ stopped) : OrderInv host limits (s.cancel sessionID reason env) := by
  have hload : ∀ p, (s.cancel sessionID reason env).load (p.cancelled env.isProcessAlive reason)
      ≤ s.load p := by
    intro p
    have hused : (p.cancelled env.isProcessAlive reason).prActionsUsed = p.prActionsUsed := by
      rcases cancelled_cases env.isProcessAlive reason p with hsame | books
      · rw [hsame]
      · exact books.prActionsUsed
    exact LoopWorld.load_mono hused fun r hr => ⟨inFlight_of_cancelled hr, id⟩
  rcases h.cancel_state hstopped hmem reason env with ⟨hstate, hlog⟩ | ⟨hstate, hlog⟩
  · refine
      { perPr := fun pr hpr => by rw [hstate]; exact hinv.perPr pr hpr
        perSession := fun other => ?_
        cancelled := fun other => by rw [hstate, hlog]; exact hinv.cancelled other
        stops := hlog ▸ hinv.stops
        tokens := hinv.tokens }
    rw [LoopWorld.sessionLoad, hstate]
    exact hinv.perSession other
  · refine
      { perPr := ?_
        perSession := ?_
        cancelled := ?_
        stops := ?_
        tokens := hinv.tokens }
    · intro pr hpr
      rw [hstate]
      rcases record_stoppedState env.isProcessAlive sessionID reason s.state pr
        with hsame | ⟨-, hcancelled⟩
      · rw [hsame]
        exact hinv.perPr pr hpr
      · rw [hcancelled]
        exact (hload _).trans (hinv.perPr pr hpr)
    · refine @OrderInv.perSession_mono host limits s _ hinv (fun p =>
        if p.sessionID = sessionID then p.cancelled env.isProcessAlive reason else p) ?_ ?_
      · rw [hstate, stoppedState, OrderedMap.values, OrderedMap.values, List.map_map, List.map_map]
        refine List.map_congr_left fun entry _ => ?_
        simp only [Function.comp_apply]
        split <;> rfl
      · intro p _ other
        split
        · have hsession : (p.cancelled env.isProcessAlive reason).sessionID = p.sessionID := by
            rcases cancelled_cases env.isProcessAlive reason p with hsame | books
            · rw [hsame]
            · exact congrArg LoopPullRequest.sessionID books.pullRequest
          exact LoopWorld.share_mono hsession (hload p) other
        · exact Nat.le_refl _
    · intro other hother
      rw [hstate]
      refine cancellation_stoppedState _ _ _ _ _ ?_
      rw [hlog] at hother
      rcases List.mem_append.mp hother with hold | hnew
      · exact Or.inr (hinv.cancelled other hold)
      · cases List.mem_singleton.mp hnew
        exact Or.inl rfl
    · rw [hlog]
      refine List.pairwise_append.mpr ⟨hinv.stops, List.pairwise_singleton _ _, ?_⟩
      rintro earlier - later hlater ⟨other, id', -, rfl⟩
      cases List.mem_singleton.mp hlater

theorem OrderInv.of_calls (hinv : OrderInv host limits s) (h : LoopInv host limits stopped s)
    (hstate : t.state = s.state) (hlog : t.log = s.log)
    (hruns : ∀ pr ∈ limits.pullRequests, ∀ r, (s.state.record pr).inFlight = some r →
      t.ownerRuns r = true → s.ownerRuns r = true)
    (htokens : ∀ id worker id' worker' token, t.workers id = some worker →
      t.workers id' = some worker' → worker.probeOwnerToken = some token →
      worker'.probeOwnerToken = some token → id = id') : OrderInv host limits t := by
  have hload : ∀ pr ∈ limits.pullRequests,
      t.load (s.state.record pr) ≤ s.load (s.state.record pr) := fun pr hpr =>
    LoopWorld.load_mono rfl fun r hr => ⟨hr, hruns pr hpr r hr⟩
  refine
    { perPr := fun pr hpr => by rw [hstate]; exact (hload pr hpr).trans (hinv.perPr pr hpr)
      perSession := @OrderInv.perSession_mono host limits s t hinv id
        (by rw [hstate, List.map_id]) ?_
      cancelled := fun sessionID => by rw [hstate, hlog]; exact hinv.cancelled sessionID
      stops := hlog ▸ hinv.stops
      tokens := htokens }
  intro p hp sessionID
  obtain ⟨pr, hpr, rfl⟩ := h.record_of_value hp
  exact LoopWorld.share_mono rfl (hload pr hpr) sessionID

theorem OrderInv.call (hinv : OrderInv host limits s) (h : LoopInv host limits stopped s)
    {ownerPid : Nat} {pending : PrFeedbackMonitorEvent} (hnew : s.workers id = none) :
    OrderInv host limits (s.withCall id (newWorker sessionID ownerPid pending)) := by
  have hback : ∀ other w token, (s.withCall id (newWorker sessionID ownerPid pending)).workers other
      = some w → w.probeOwnerToken = some token → s.workers other = some w := by
    intro other w token hw htoken
    by_cases hid : other = id
    · subst hid
      change Function.update s.workers other _ other = some w at hw
      rw [Function.update_self] at hw
      cases hw
      cases htoken
    · exact (Function.update_of_ne hid _ _).symm.trans hw
  refine hinv.of_calls h rfl rfl ?_ ?_
  · intro pr hpr r hr hruns
    obtain ⟨-, worker, hworker, -⟩ := (h.records pr hpr).owner r hr
    have hne : r.workflowInstanceId ≠ id := by
      intro heq
      rw [heq, hnew] at hworker
      cases hworker
    unfold LoopWorld.ownerRuns at hruns ⊢
    rwa [show (s.withCall id _).workers r.workflowInstanceId = s.workers r.workflowInstanceId from
      Function.update_of_ne hne _ _] at hruns
  · intro a w a' w' token hw hw' htoken htoken'
    exact hinv.tokens a w a' w' token (hback a w token hw htoken) (hback a' w' token hw' htoken')
      htoken htoken'

theorem OrderInv.crash (hinv : OrderInv host limits s) (h : LoopInv host limits stopped s)
    (ownerPid : Nat) : OrderInv host limits (s.crash ownerPid) := by
  have hback : ∀ id w, (s.crash ownerPid).workers id = some w → ∃ worker,
      s.workers id = some worker ∧ w.probeOwnerToken = worker.probeOwnerToken
        ∧ (w.crashed = false → worker.crashed = false) := by
    intro id w hw
    obtain ⟨worker, hworker, rfl⟩ := Option.map_eq_some_iff.mp hw
    refine ⟨worker, hworker, ?_, ?_⟩
    · split <;> rfl
    · split
      · exact fun h => nomatch h
      · exact fun h => h
  refine hinv.of_calls h rfl rfl ?_ ?_
  · intro pr _ r _ hruns
    obtain ⟨w, hw, hcrashed⟩ := (Option.any_eq_true _ _).mp hruns
    obtain ⟨worker, hworker, -, hstill⟩ := hback _ w hw
    rw [LoopWorld.ownerRuns, hworker, Option.any_some, hstill (by simpa using hcrashed)]
    rfl
  · intro a w a' w' token hw hw' htoken htoken'
    obtain ⟨v, hv, hvtoken, -⟩ := hback a w hw
    obtain ⟨v', hv', hvtoken', -⟩ := hback a' w' hw'
    exact hinv.tokens a v a' v' token hv hv' (hvtoken ▸ htoken) (hvtoken' ▸ htoken')

theorem OrderInv.next (hinv : OrderInv host limits s) (h : LoopInv host limits stopped s)
    (hkeys : limits.KeysDistinct) (hstopped : stopped.length ≤ MAX_TRACKED_SESSIONS)
    {a : LoopLabel} (hstep : LoopStep host s a t)
    (hwithin : WithinLimits host limits stopped s a) : OrderInv host limits t := by
  rcases loopStep_cases hstep with ⟨id, sessionID, ownerPid, pending, rfl, hnew, -, rfl⟩
    | ⟨id, env, worker, e, rfl, hworker, hcrashed, he, hsound, hfresh, rfl⟩ | ⟨ownerPid, rfl, rfl⟩
    | ⟨sessionID, reason, env, rfl, -, rfl⟩ | ⟨sessionID, origin, mutation, queues, rfl, rfl⟩
  · exact hinv.call h hnew
  · exact hinv.step h hkeys hworker hcrashed hsound hfresh
      (callStep_step h hstopped hworker hwithin.1 he)
  · exact hinv.crash h ownerPid
  · exact hinv.cancel h hstopped hwithin.2
  · exact hinv.of_calls h rfl rfl (fun _ _ _ _ hruns => hruns) hinv.tokens

theorem orderInv_initial (host : LoopHost) (limits : LoopLimits) :
    OrderInv host limits LoopWorld.initial where
  perPr := fun _ _ => Nat.zero_le _
  perSession := fun _ => Nat.zero_le _
  cancelled := fun _ h => nomatch h
  stops := List.Pairwise.nil
  tokens := fun _ _ _ _ _ h => nomatch h

/-! ## Owners and probes -/

variable {state : LoopState}

theorem LoopState.get?_of_inFlight {pr : LoopPullRequest} {r : InFlightClaim}
    (hr : (state.record pr).inFlight = some r) :
    state.correlations.get? pr.key = some (state.record pr) := by
  cases hget : state.correlations.get? pr.key with
  | some p => rw [LoopState.record_of_some hget]
  | none =>
    rw [LoopState.record_of_none hget] at hr
    cases hr

variable {a : LoopLabel}

theorem LoopInv.ownersSettle (h : LoopInv host limits stopped s) (hkeys : limits.KeysDistinct)
    (hstopped : stopped.length ≤ MAX_TRACKED_SESSIONS) (hstep : LoopStep host s a t)
    (hwithin : WithinLimits host limits stopped s a) : OwnersSettle s a t := by
  intro key p r hget hr hstarted
  have hkey : key ∈ s.state.correlations.keys :=
    List.mem_map_of_mem (OrderedMap.mem_of_get? hget)
  obtain ⟨pr, hpr, rfl⟩ := h.keys_mem key hkey
  obtain rfl : s.state.record pr = p := LoopState.record_of_some hget
  obtain ⟨hidentity, owner, howner, hpid⟩ := (h.records pr hpr).owner r hr
  rcases loopStep_cases hstep with ⟨id, sessionID, ownerPid, pending, rfl, -, -, rfl⟩
    | ⟨id, env, worker, e, rfl, hworker, -, he, -, -, rfl⟩ | ⟨ownerPid, rfl, rfl⟩
    | ⟨sessionID, reason, env, rfl, -, rfl⟩ | ⟨sessionID, origin, mutation, queues, rfl, rfl⟩
  · exact Or.inl ⟨_, hget, hr, rfl, rfl⟩
  · by_cases hid : r.workflowInstanceId = id
    · subst hid
      exact Or.inr (Or.inl ⟨env, owner, rfl, howner, hpid⟩)
    · have hmove := (callStep_step h hstopped hworker hwithin.1 he).move
      obtain ⟨hkept, hused, hdigests⟩ := hmove.keeps_started h hkeys hworker hpr hr hstarted hid
      exact Or.inl ⟨_, LoopState.get?_of_inFlight hkept, hkept, hused, hdigests⟩
  · exact Or.inl ⟨_, hget, hr, rfl, rfl⟩
  · cases halive : env.isProcessAlive r.ownerPid with
    | false => exact Or.inr (Or.inr ⟨sessionID, reason, env, rfl, halive⟩)
    | true =>
      left
      rcases h.cancel_state hstopped hwithin.2 reason env with ⟨hstate, -⟩ | ⟨hstate, -⟩
      · rw [hstate]
        exact ⟨_, hget, hr, rfl, rfl⟩
      · rw [hstate]
        rcases record_stoppedState env.isProcessAlive sessionID reason s.state pr
          with hsame | ⟨-, hcancelled⟩
        · rw [← hsame] at hr ⊢
          exact ⟨_, LoopState.get?_of_inFlight hr, hr, rfl, rfl⟩
        · have hkept := cancelled_inFlight hr hstarted hidentity halive reason
          rw [← hcancelled] at hkept
          refine ⟨_, LoopState.get?_of_inFlight hkept, hkept, ?_, ?_⟩ <;> rw [hcancelled] <;>
            rcases cancelled_cases env.isProcessAlive reason (s.state.record pr)
              with hsame | books
          · rw [hsame]
          · exact books.prActionsUsed
          · rw [hsame]
          · exact books.processedDigests
  · exact Or.inl ⟨_, hget, hr, rfl, rfl⟩

theorem admitHalfOpenProbe_free {isProcessAlive : Nat → Bool} {token : JsString} {pid : Nat}
    {now : Int} {pr : LoopPullRequest} {copy : CorrelationState} {state : LoopState}
    {probe : HalfOpenProbeAdmission}
    (hprobe : (admitHalfOpenProbe isProcessAlive token pid pr.key now copy state).2 = some probe)
    (hstarted : probe.probeStarted = true) :
    (state.record pr).circuit.halfOpenProbes < 1
      ∨ ∃ owner, (state.record pr).circuit.halfOpenProbeOwnerPid = some owner
          ∧ isProcessAlive owner = false := by
  cases hget : state.correlations.get? pr.key with
  | none =>
    rw [LoopState.record_of_none hget]
    exact Or.inl Nat.zero_lt_one
  | some p =>
    rw [LoopState.record_of_some hget]
    unfold admitHalfOpenProbe at hprobe
    simp only [hget, Option.isNone_some, Bool.false_and, Bool.false_eq_true, if_false,
      Option.getD_some] at hprobe
    split at hprobe
    · cases hprobe
      cases hstarted
    split at hprobe
    · cases hprobe
      cases hstarted
    split at hprobe
    · cases hprobe
      cases hstarted
    · rename_i hfree
      rw [Bool.and_eq_true, not_and_or] at hfree
      rcases hfree with hnone | hgone
      · left
        simpa using hnone
      · right
        rw [Bool.not_eq_true, Bool.not_eq_false', Bool.and_eq_true] at hgone
        obtain ⟨owner, howner, hdead⟩ := (Option.any_eq_true _ _).mp hgone.2
        rw [Bool.and_eq_true, Bool.not_eq_true'] at hdead
        exact ⟨owner, howner, hdead.2⟩

/-- A call draws a probe owner only in the half-open admission, and only when it starts a
    probe. -/
theorem callStep_probeOwner {queue : Option PrFeedbackQueueRecord}
    (he : callStep host env id worker state queue = some e)
    (hnew : e.worker.probeOwnerToken ≠ worker.probeOwnerToken) :
    ∃ call probe, worker.phase = .admitting call ∧ probe.probeStarted = true
      ∧ (withLoopStateLock env.fault state none
          (admitHalfOpenProbe env.isProcessAlive env.randomUUID worker.ownerPid
            (eventKey worker.sessionID call.event) env.now call.correlation)).2 = some probe := by
  unfold callStep at he
  cases hphase : worker.phase <;> rw [hphase] at he <;> simp only at he
  case admitting call =>
    cases he
    refine ⟨call, ?_⟩
    dsimp only [admittingStep] at hnew
    generalize withLoopStateLock env.fault state none _ = answer at hnew ⊢
    obtain ⟨next, probe⟩ := answer
    cases probe with
    | none => exact absurd rfl hnew
    | some probe =>
      refine ⟨probe, rfl, ?_, rfl⟩
      by_contra hquiet
      simp only [hquiet, if_false] at hnew
      split at hnew <;> exact hnew rfl
  -- no other phase touches the owner
  all_goals
    refine absurd ?_ hnew
    cases he
  case claiming pending =>
    dsimp only [claimingStep]
    split
    · split
      · split <;> rfl
      · rfl
    · rfl
    · rfl
  case reading event =>
    unfold readingStep
    split <;> rfl
  case checking event snapshot correlation =>
    unfold checkingStep
    split
    · split <;> rfl
    · rfl
  case barrier call =>
    unfold barrierStep
    split <;> rfl
  case sequencing call =>
    unfold sequencingStep
    split <;> rfl
  case denying call oversight =>
    dsimp only [denyingStep]
    split
    · rfl
    · split <;> rfl
  case acted call outcome =>
    unfold actedStep
    split <;> rfl
  all_goals rfl

theorem probesTakeTurns (hstep : LoopStep host s a t) : ProbesTakeTurns s a t := by
  rintro id env worker worker' rfl hworker hworker' hnew
  rcases loopStep_cases hstep with ⟨_, _, _, _, ha, -⟩
    | ⟨id', env', worker₀, e, ha, hworker₀, -, he, hsound, -, rfl⟩ | ⟨_, ha, -⟩
    | ⟨_, _, _, ha, -⟩ | ⟨_, _, _, _, ha, -⟩ <;> cases ha
  cases hworker.symm.trans hworker₀
  change Function.update s.workers id _ id = some worker' at hworker'
  rw [Function.update_self] at hworker'
  cases hworker'
  obtain ⟨call, probe, hphase, hstarted, hanswer⟩ := callStep_probeOwner he hnew
  refine ⟨call, hphase, fun other w hw hcrashed => ?_⟩
  rintro ⟨hprobes, hpid, -⟩
  have hadmitted := (withLoopStateLock_answer hanswer (Option.some_ne_none probe).symm).1
  rcases @admitHalfOpenProbe_free _ _ _ _ (call.event.pullRequest worker.sessionID) _ _ _
    hadmitted hstarted with hfree | ⟨owner, howner, hdead⟩
  · exact absurd hprobes (Nat.not_le.mpr hfree)
  · cases hpid.symm.trans howner
    rw [hsound other w hw hcrashed] at hdead
    cases hdead

end Steps

/-! ## Every run -/

/-- In every run within the limits caps, stops and probes are in order, and every step
    leaves started reservations to their owners. -/
theorem inOrder_of_run {host : LoopHost} {limits : LoopLimits} {stopped : List JsString}
    (hkeys : limits.KeysDistinct) (hstopped : stopped.length ≤ MAX_TRACKED_SESSIONS)
    {as : List LoopLabel} {s : LoopWorld}
    (hrun : Run (Guarded (LoopStep host) (WithinLimits host limits stopped))
      LoopWorld.initial as s) :
    s.InOrder host ∧ ∀ a t, LoopStep host s a t → WithinLimits host limits stopped s a →
          OwnersSettle s a t ∧ ProbesTakeTurns s a t := by
  have hnext : ∀ s a t, Guarded (LoopStep host) (WithinLimits host limits stopped) s a t →
      LoopInv host limits stopped s ∧ OrderInv host limits s →
      LoopInv host limits stopped t ∧ OrderInv host limits t := by
    rintro s a t ⟨hstep, hwithin⟩ ⟨h, horder⟩
    exact ⟨h.next hkeys hstopped hstep hwithin, horder.next h hkeys hstopped hstep hwithin⟩
  obtain ⟨h, horder⟩ := hrun.preserves hnext
    ⟨loopInv_initial host limits stopped, orderInv_initial host limits⟩
  refine ⟨{ perPr := ?_, perSession := horder.perSession, stops := horder.stops, probes := ?_ },
    fun a t hstep hwithin => ⟨h.ownersSettle hkeys hstopped hstep hwithin, probesTakeTurns hstep⟩⟩
  · intro p hp
    obtain ⟨pr, hpr, rfl⟩ := h.record_of_value hp
    exact horder.perPr pr hpr
  · rintro p - id worker id' worker' hworker hworker' ⟨-, -, token, htoken, hmarker⟩
      ⟨-, -, token', htoken', hmarker'⟩
    cases hmarker.symm.trans hmarker'
    exact horder.tokens id worker id' worker' token hworker hworker' htoken htoken'

/-- A call that marks its action start. -/
theorem inOrder_oneCall : ∃ t : LoopWorld,
    LoopRecord.started (js "s") (js "a") ∈ t.log ∧ t.InOrder plainLoop := by
  have htrace : ((startsCall (js "s") (js "r") (js "a") (js "1") 1 ++ goesAhead (js "a") 11).foldlM
      (loopTraceStep plainLoop (WithinLimits plainLoop oneAction [])) LoopWorld.initial).any
      (fun t => decide (LoopRecord.started (js "s") (js "a") ∈ t.log)) = true := by
    decide +kernel
  obtain ⟨t, ht, hstarted⟩ := (Option.any_eq_true _ _).mp htrace
  exact ⟨t, of_decide_eq_true hstarted, (inOrder_of_run oneAction_keysDistinct (Nat.zero_le _)
    (loopRun_of_trace (goingCall_peaceful (by decide +kernel) 11) ht)).1⟩

/-! ## More stops than the document keeps, and a shared record -/

/-- Stops of the sessions before `n`, from the first on. -/
def stopsBefore (n : Nat) : List LoopLabel :=
  (List.range n).map fun k =>
    .cancel (if k = 0 then js "s" else [UInt16.ofNat k, 0]) (js "x") agreeable

/-- Two pull requests with one key, and a budget of one action. -/
def sharedRecord : LoopLimits where
  pullRequests :=
    [{ sessionID := js "a", repoFullName := js "b::c", prNumber := 7 },
      { sessionID := js "a::b", repoFullName := js "c", prNumber := 7 }]
  digests := fun pr => [(fixAction pr.repoFullName).digest id]
  pullRequests_le := by decide
  digests_le := fun _ => by
    rw [List.length_singleton]
    decide

/-- The newest 200 stops push the first out of the document, and its session starts an
    action; two sessions that share a record share its counter. -/
theorem not_inOrder_overflow :
    (∃ (host : LoopHost) (limits : LoopLimits) (as : List LoopLabel) (t : LoopWorld),
        limits.KeysDistinct
          ∧ Run (Guarded (LoopStep host) (limits.Admit host)) LoopWorld.initial as t
          ∧ ¬ t.InOrder host)
      ∧ ∃ (host : LoopHost) (limits : LoopLimits) (as : List LoopLabel) (t : LoopWorld),
          Run (Guarded (LoopStep host) (WithinLimits host limits [])) LoopWorld.initial as t
            ∧ ¬ t.InOrder host := by
  constructor
  · have htrace : ((stopsBefore 201 ++ (startsCall (js "s") (js "r") (js "a") (js "1") 1
          ++ goesAhead (js "a") 11)).foldlM
        (loopTraceStep plainLoop (oneAction.Admit plainLoop)) LoopWorld.initial).any
        (fun t => decide (t.log[0]? = some (.cancelled (js "s"))
          ∧ t.log[201]? = some (.started (js "s") (js "a")))) = true := by
      decide +kernel
    obtain ⟨t, ht, hlog⟩ := (Option.any_eq_true _ _).mp htrace
    obtain ⟨hfirst, hlast⟩ := of_decide_eq_true hlog
    refine ⟨plainLoop, oneAction, _, t, oneAction_keysDistinct, loopRun_of_trace ?_ ht, ?_⟩
    · intro a ha
      rcases List.mem_append.mp ha with hstop | hcall
      · obtain ⟨k, -, rfl⟩ := List.mem_map.mp hstop
        exact fun _ => rfl
      · exact goingCall_peaceful (by decide +kernel) 11 a hcall
    · intro hinOrder
      obtain ⟨h0, hfirst⟩ := List.getElem?_eq_some_iff.mp hfirst
      obtain ⟨h201, hlast⟩ := List.getElem?_eq_some_iff.mp hlast
      refine List.pairwise_iff_getElem.mp hinOrder.stops 0 201 h0 h201 (by decide) ?_
      exact ⟨js "s", js "a", hfirst, hlast⟩
  · have htrace : ((startsCall (js "a") (js "b::c") (js "x") (js "1") 1 ++ goesAhead (js "x") 14
          ++ (startsCall (js "a::b") (js "c") (js "y") (js "2") 1 ++ goesAhead (js "y") 14)).foldlM
        (loopTraceStep { plainLoop with budget := { maxSessionActions := 1, maxActionsPerPr := 5 } }
          (WithinLimits { plainLoop with budget := { maxSessionActions := 1, maxActionsPerPr := 5 } }
            sharedRecord [])) LoopWorld.initial).any
        (fun t => decide (2 ≤ t.sessionLoad (js "a"))) = true := by
      decide +kernel
    obtain ⟨t, ht, hload⟩ := (Option.any_eq_true _ _).mp htrace
    refine ⟨_, sharedRecord, _, t, loopRun_of_trace (List.forall_mem_append.mpr
      ⟨goingCall_peaceful (by decide +kernel) 14, goingCall_peaceful (by decide +kernel) 14⟩) ht,
      fun hinOrder => ?_⟩
    have hbound := hinOrder.perSession (js "a")
    exact absurd (le_trans (of_decide_eq_true hload) hbound) (by decide)

end OpencodeSwarm
