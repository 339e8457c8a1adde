/-
  OpencodeSwarm.PrFeedback.LoopSteps

  Every step of a call is one of the moves of `CallMove`: one lemma for each phase,
  and `callStep_step` for all of them.
-/
import OpencodeSwarm.PrFeedback.LoopInvariant

namespace OpencodeSwarm

open Js

section Steps

variable {host : LoopHost} {limits : LoopLimits} {stopped : List JsString} {s : LoopWorld}
  {env : LoopEnv} {id : JsString} {worker : LoopWorker} {queue : Option PrFeedbackQueueRecord}
  {event : PrFeedbackMonitorEvent} {correlation : CorrelationState} {snapshot : LoopState}
  {pr : LoopPullRequest} {state : LoopState} {call : LoopCall}

/-! ## Claiming and reading -/

theorem claimingStep_step {pending : PrFeedbackMonitorEvent}
    (hphase : worker.phase = .claiming pending) :
    CallStep host limits env id worker s.state
      (claimingStep host env id worker s.state queue pending) := by
  have hquiet : ∀ (next : Option PrFeedbackQueueRecord) (phase : LoopPhase), phase.event = none →
      phase.acting = none → phase.holding = none →
      CallStep host limits env id worker s.state
        { state := s.state, queue := next, worker := worker.at_ phase, log := [] } := by
    intro next phase hevent hacting hholding
    refine ⟨⟨rfl, rfl, rfl, Or.inl ⟨rfl, rfl⟩⟩, ⟨?_, ?_, ?_, ?_⟩, .quiet (.refl _) rfl hacting⟩
    · intro event h
      rw [show phase.event = some event from h] at hevent
      cases hevent
    · intro event _ h
      rw [show phase.event = some event from h] at hevent
      cases hevent
    · intro _
      rw [hphase]
      rfl
    · intro call h
      rw [show phase.holding = some call from h] at hholding
      cases hholding
  simp only [claimingStep]
  split
  · split
    · split
      · exact hquiet _ _ rfl rfl rfl
      · exact hquiet _ _ rfl rfl rfl
    · exact hquiet _ _ rfl rfl rfl
  · exact hquiet _ _ rfl rfl rfl
  · exact hquiet _ _ rfl rfl rfl

theorem readingStep_step (h : LoopInv host limits stopped s)
    (hphase : worker.phase = .reading event)
    (hpr : event.pullRequest worker.sessionID ∈ limits.pullRequests) :
    CallStep host limits env id worker s.state (readingStep env worker s.state queue event) := by
  have hevents : ∀ other, some event = some other →
      other.pullRequest worker.sessionID ∈ limits.pullRequests := by
    rintro other ⟨⟩
    exact hpr
  unfold readingStep
  split
  · refine CallStep.idles rfl hevents ?_ ?_ (Or.inl rfl)
    · rintro other copy ⟨⟩ ⟨⟩
      exact .refl (h.records _ hpr).settled
    · intro _
      rw [hphase]
      rfl
  · exact CallStep.idles rfl (fun _ h => nomatch h) (fun _ _ h => nomatch h)
      (fun h => nomatch h) (Or.inl rfl)
  · exact CallStep.idles rfl hevents (fun _ _ _ h => nomatch h) (fun h => nomatch h) (Or.inl rfl)

variable (h : LoopInv host limits stopped s) (hstopped : stopped.length ≤ MAX_TRACKED_SESSIONS)
  (hok : WorkerOk host limits s.state id worker)

/-! ## Steps that take no lock -/

/-- Where the authorization can lead. -/
inductive Authorized (event : PrFeedbackMonitorEvent) (correlation : CorrelationState) :
    LoopPhase → Prop where
  | unclaiming : Authorized event correlation (.unclaiming event)
  | returned : Authorized event correlation .returned
  | persisting (terminal : LoopTerminal) :
      Authorized event correlation
        (.persisting event { correlation with terminal := some terminal })
  | refusing (terminal : Option LoopTerminal) :
      Authorized event correlation (.refusing event correlation terminal)
  | admitting (head : JsString) :
      Authorized event correlation
        (.admitting { event := event, correlation := correlation, head := head })

/-- A digest that is processed comes with a terminal, so none is restored. -/
theorem authorizeEvent_authorized {head : JsString}
    (hsettled : correlation.processedDigests ≠ [] → correlation.terminal.isSome) :
    Authorized event correlation
      (authorizeEvent host env worker event snapshot correlation head) := by
  simp only [authorizeEvent]
  split
  · rename_i hreplay
    rw [if_pos (hsettled (List.ne_nil_of_mem hreplay))]
    exact .returned
  split
  · exact .refusing _
  split
  · exact .refusing _
  · exact .admitting head

/-- A step from the final admission on, with its document and its log. -/
theorem CallStep.of_move {phase : LoopPhase} {log : List LoopRecord}
    (hpr : call.event.pullRequest worker.sessionID ∈ limits.pullRequests)
    (horder : phase.beforeReport = true → worker.phase.beforeReport = true)
    (hholding : ∀ held, phase.holding = some held → (worker.phase = .approved call
      ∨ worker.phase.holding = some call) ∧ call.event = held.event ∧ call.head = held.head)
    (hphase : phase.event = none ∨ phase.event = some call.event)
    (hcopy : ∀ copy, phase.copy = some copy →
      copy.CopyOf (state.record (call.event.pullRequest worker.sessionID)))
    (hmove : CallMove host env id worker s.state
      { state := state, queue := queue, worker := worker.at_ phase, log := log }) :
    CallStep host limits env id worker s.state
      { state := state, queue := queue, worker := worker.at_ phase, log := log } := by
  refine ⟨⟨rfl, rfl, rfl, Or.inl ⟨rfl, rfl⟩⟩, ⟨?_, ?_, horder, ?_⟩, hmove⟩
  · intro other hother
    rcases hphase with hnone | hsome
    · rw [show phase.event = some other from hother] at hnone
      cases hnone
    · rw [show phase.event = some other from hother] at hsome
      cases hsome
      exact hpr
  · intro other copy hother hcopy'
    rcases hphase with hnone | hsome
    · rw [show phase.event = some other from hother] at hnone
      cases hnone
    · rw [show phase.event = some other from hother] at hsome
      cases hsome
      exact hcopy copy hcopy'
  · intro held hheld
    obtain ⟨hcall, hevent', hhead⟩ := hholding held hheld
    exact ⟨call, hcall, hevent', hhead⟩

section Unlocked

include hok

theorem checkingStep_step (hphase : worker.phase = .checking event snapshot correlation) :
    CallStep host limits env id worker s.state
      (checkingStep env worker s.state queue event snapshot correlation) := by
  obtain ⟨hevent, hpr, hcopies⟩ := hok.inPhase hphase rfl rfl
  unfold checkingStep
  split
  · split
    · exact CallStep.goes hevent hpr (.refl env worker) rfl (fun _ => by rw [hphase]; rfl) rfl
        (Or.inr rfl) hcopies (Or.inl (.refl _))
    · refine CallStep.ends hevent hpr (.refl env worker) trivial (Or.inr rfl) ?_ (Or.inl (.refl _))
      rintro copy ⟨⟩
      exact (hcopies _ rfl).withTerminal fun _ => rfl
  · exact CallStep.ends hevent hpr (.refl env worker) trivial (Or.inl rfl)
      (fun _ h => nomatch h) (Or.inl (.refl _))

theorem evaluatingStep_step (hphase : worker.phase = .evaluating event snapshot correlation) :
    CallStep host limits env id worker s.state
      (evaluatingStep host env worker s.state queue event snapshot correlation) := by
  obtain ⟨hevent, hpr, hcopies⟩ := hok.inPhase hphase rfl rfl
  have hcopy := hcopies _ rfl
  have hgo : ∀ phase, Authorized event correlation phase →
      CallStep host limits env id worker s.state (goesOn worker s.state queue phase) := by
    rintro phase hphase'
    cases hphase' with
    | unclaiming =>
      exact CallStep.ends hevent hpr (.refl env worker) trivial (Or.inr rfl)
        (fun _ h => nomatch h) (Or.inl (.refl _))
    | returned =>
      exact CallStep.ends hevent hpr (.refl env worker) trivial (Or.inl rfl)
        (fun _ h => nomatch h) (Or.inl (.refl _))
    | persisting terminal =>
      refine CallStep.ends hevent hpr (.refl env worker) trivial (Or.inr rfl) ?_ (Or.inl (.refl _))
      rintro copy ⟨⟩
      exact hcopy.withTerminal fun _ => rfl
    | refusing terminal =>
      exact CallStep.ends hevent hpr (.refl env worker) trivial (Or.inr rfl) hcopies
        (Or.inl (.refl _))
    | admitting head =>
      exact CallStep.goes hevent hpr (.refl env worker) rfl (fun _ => by rw [hphase]; rfl) rfl
        (Or.inr rfl) hcopies (Or.inl (.refl _))
  refine hgo _ ?_
  split
  · exact .persisting _
  · exact .unclaiming
  · split
    · exact .unclaiming
    · exact .refusing _
    · split
      · exact .refusing _
      · exact authorizeEvent_authorized hcopy.settled

theorem barrierStep_step (hphase : worker.phase = .barrier call) :
    CallStep host limits env id worker s.state (barrierStep env worker s.state queue call) := by
  obtain ⟨hevent, hpr, hcopies⟩ := hok.inPhase hphase rfl rfl
  simp only [barrierStep]
  split
  · exact CallStep.goes hevent hpr (.refl env worker) rfl (fun _ => by rw [hphase]; rfl) rfl
      (Or.inr rfl) hcopies
      (Or.inl (.refl _))
  · exact CallStep.ends hevent hpr (.refl env worker) trivial (Or.inr rfl)
      (fun _ h => nomatch h) (Or.inl (.refl _))
  · exact CallStep.ends hevent hpr (.refl env worker) trivial (Or.inr rfl) hcopies
      (Or.inl (.refl _))

theorem overseeingStep_step (hphase : worker.phase = .overseeing call) :
    CallStep host limits env id worker s.state
      (overseeingStep env worker s.state queue call) := by
  obtain ⟨hevent, hpr, hcopies⟩ := hok.inPhase hphase rfl rfl
  have horder : worker.phase.beforeReport = true := by rw [hphase]; rfl
  simp only [overseeingStep]
  split
  · exact CallStep.ends hevent hpr (.refl env worker) trivial (Or.inr rfl) hcopies
      (Or.inl (.refl _))
  split
  · exact CallStep.goes hevent hpr (.refl env worker) rfl (fun _ => horder) rfl (Or.inr rfl)
      hcopies (Or.inl (.refl _))
  · exact CallStep.goes hevent hpr (.refl env worker) rfl (fun _ => horder) rfl (Or.inr rfl)
      hcopies (Or.inl (.refl _))

theorem reservedStep_step (hphase : worker.phase = .reserved call) :
    CallStep host limits env id worker s.state (reservedStep env worker s.state queue call) := by
  obtain ⟨hevent, hpr, hcopies⟩ := hok.inPhase hphase rfl rfl
  have horder : worker.phase.beforeReport = true := by rw [hphase]; rfl
  simp only [reservedStep]
  split
  · exact CallStep.of_move hpr (fun _ => horder) (fun _ h => nomatch h) (Or.inr rfl) hcopies
      (.quiet (.refl _) rfl rfl)
  · refine CallStep.of_move hpr (fun _ => horder) ?_ (Or.inr rfl) hcopies
      (.quiet (.refl _) rfl rfl)
    rintro held ⟨⟩
    exact ⟨Or.inr (by rw [hphase]; rfl), rfl, rfl⟩

theorem startedStep_step {startedAt : Int} (hphase : worker.phase = .started call startedAt) :
    CallStep host limits env id worker s.state
      (startedStep env worker s.state queue call startedAt) := by
  obtain ⟨hevent, hpr, hcopies⟩ := hok.inPhase hphase rfl rfl
  have horder : worker.phase.beforeReport = true := by rw [hphase]; rfl
  simp only [startedStep]
  split
  · exact CallStep.of_move hpr (fun _ => horder) (fun _ h => nomatch h) (Or.inr rfl) hcopies
      (.quiet (.refl _) rfl rfl)
  · refine CallStep.of_move hpr (fun _ => horder) ?_ (Or.inr rfl) hcopies
      (.begins call startedAt hphase rfl rfl rfl)
    rintro held ⟨⟩
    exact ⟨Or.inr (by rw [hphase]; rfl), rfl, rfl⟩

theorem performingStep_step {attempt : Nat} (hphase : worker.phase = .performing call attempt) :
    CallStep host limits env id worker s.state
      (performingStep env id worker s.state queue call attempt) := by
  obtain ⟨hevent, hpr, hcopies⟩ := hok.inPhase hphase rfl rfl
  have horder : worker.phase.beforeReport = true := by rw [hphase]; rfl
  simp only [performingStep, goesOn]
  split
  · exact CallStep.of_move hpr (fun _ => horder) (fun _ h => nomatch h) (Or.inr rfl) hcopies
      (.performs call attempt hphase rfl rfl (Or.inl rfl))
  · rename_i hagain
    simp only [Bool.or_eq_true, not_or, Bool.not_eq_true] at hagain
    refine CallStep.of_move hpr (fun _ => horder) ?_ (Or.inr rfl) hcopies
      (.performs call attempt hphase rfl rfl (Or.inr ⟨hagain.1.1.1, rfl⟩))
    rintro held ⟨⟩
    exact ⟨Or.inr (by rw [hphase]; rfl), rfl, rfl⟩

theorem unclaimingStep_step (hphase : worker.phase = .unclaiming event) :
    CallStep host limits env id worker s.state
      (unclaimingStep host env id worker s.state queue event) := by
  have hevent : worker.phase.event = some event := by rw [hphase]; rfl
  exact CallStep.ends hevent (hok.event event hevent) (.refl env worker) trivial (Or.inl rfl)
    (fun _ h => nomatch h) (Or.inl (.refl _))

end Unlocked

/-! ## The end of a probe -/

/-- A copy goes on being one behind a section that moves its correlation or leaves it. -/
theorem CorrelationState.CopyOf.behind {copy : CorrelationState}
    (h : copy.CopyOf (s.state.record pr))
    (hstate : s.state.Same state
      ∨ ∃ q, RecordMove (s.state.record pr) q ∧ state = s.state.put pr.key q) :
    copy.CopyOf (state.record pr) := by
  rcases hstate with hsame | ⟨q, hmove, rfl⟩
  · rw [hsame.record]
    exact h
  · rw [LoopState.record_put_self]
    exact h.later hmove.books.toPrecedes

theorem SameCall.withoutProbe (env : LoopEnv) (worker : LoopWorker) :
    SameCall env worker worker.withoutProbe :=
  ⟨rfl, rfl, rfl, Or.inl ⟨rfl, rfl⟩⟩

section Locked

include h hstopped

theorem endHalfOpenProbe_state (hpr : pr ∈ limits.pullRequests)
    (close : LoopCircuitState → LoopCircuitState) (fault : LoopFault) (token : Option JsString)
    (pid : Option Nat) :
    let answer := withLoopStateLock fault s.state (some none)
      (endHalfOpenProbe close pr.key token pid)
    s.state.Same answer.1
      ∨ ∃ q, RecordMove (s.state.record pr) q ∧ answer.1 = s.state.put pr.key q := by
  intro answer
  rcases @LoopInv.locked host limits stopped s h hstopped pr hpr _ fault (some none)
      (endHalfOpenProbe close pr.key token pid) (RecordMove (s.state.record pr))
      fun next hnext => endHalfOpenProbe_moves hnext with hsame | hmoved
  · left
    show s.state.Same (withLoopStateLock _ _ _ _).1
    rw [hsame]
    exact .refl _
  · exact Or.inr hmoved

/-- The end of a probe under the lock, and what the call knows of the document. -/
theorem endHalfOpenProbe_behind {pr : LoopPullRequest} (hpr : pr ∈ limits.pullRequests)
    {close : LoopCircuitState → LoopCircuitState} {fault : LoopFault} {token : Option JsString}
    {pid : Option Nat} {copy : CorrelationState} (hcopy : copy.CopyOf (s.state.record pr)) :
    let answer := withLoopStateLock fault s.state (some none)
      (endHalfOpenProbe close pr.key token pid)
    (s.state.Same answer.1
        ∨ ∃ q, RecordMove (s.state.record pr) q ∧ answer.1 = s.state.put pr.key q)
      ∧ CorrelationState.CopyOf ((answer.2.getD none).getD copy) (answer.1.record pr) := by
  intro answer
  have hstate := endHalfOpenProbe_state h hstopped hpr close fault token pid
  refine ⟨hstate, ?_⟩
  cases hanswer : answer.2.getD none with
  | none => exact hcopy.behind hstate
  | some correlation =>
    have hsome : answer.2 = some (some correlation) := by
      cases hansw : answer.2 with
      | none =>
        rw [hansw] at hanswer
        cases hanswer
      | some released =>
        rw [hansw] at hanswer
        rw [show released = some correlation from hanswer]
    obtain ⟨hown, hwritten⟩ := withLoopStateLock_answer hsome (fun h => nomatch h)
    rcases endHalfOpenProbe_answer hown with ⟨hnone, hrecord⟩ | hput
    · rw [hnone] at hwritten
      rw [Option.getD_some, hrecord, show answer.1 = s.state from hwritten]
      exact .refl (h.records pr hpr).settled
    · obtain ⟨q, hq, hmove⟩ := endHalfOpenProbe_moves hput
      have hsame : q = correlation := by
        have := congrArg (LoopState.record · pr) hq
        simp only [LoopState.record_put_self] at this
        exact this.symm
      rw [hput] at hwritten
      rw [Option.getD_some, show answer.1 = s.state.put pr.key correlation from
        hwritten.trans (h.written_put hstopped hpr correlation), LoopState.record_put_self]
      exact (hsame ▸ hmove).books.copyOf (h.records pr hpr).settled

theorem releaseAdmittedProbe_state {event : PrFeedbackMonitorEvent}
    (hpr : event.pullRequest worker.sessionID ∈ limits.pullRequests) (copy : CorrelationState) :
    s.state.Same (releaseAdmittedProbe env worker s.state event copy).1
      ∨ ∃ q, RecordMove (s.state.record (event.pullRequest worker.sessionID)) q
          ∧ (releaseAdmittedProbe env worker s.state event copy).1
            = s.state.put (event.pullRequest worker.sessionID).key q := by
  simp only [releaseAdmittedProbe]
  split
  · exact Or.inl (.refl _)
  exact endHalfOpenProbe_state h hstopped hpr clearHalfOpenProbeMarker env.fault
    worker.probeOwnerToken worker.probeOwnerPid

theorem releaseAdmittedProbe_copy {event : PrFeedbackMonitorEvent}
    (hpr : event.pullRequest worker.sessionID ∈ limits.pullRequests) {copy : CorrelationState}
    (hcopy : copy.CopyOf (s.state.record (event.pullRequest worker.sessionID))) :
    (releaseAdmittedProbe env worker s.state event copy).2.CopyOf
      ((releaseAdmittedProbe env worker s.state event copy).1.record
        (event.pullRequest worker.sessionID)) := by
  simp only [releaseAdmittedProbe]
  split
  · exact hcopy
  · exact (endHalfOpenProbe_behind h hstopped hpr hcopy).2

/-! ## Steps that take the lock -/

include hok

/-- A claim refused, a probe ended or the reservation made leaves the invariant. -/
theorem admittingStep_step (hphase : worker.phase = .admitting call) :
    CallStep host limits env id worker s.state (admittingStep env worker s.state queue call) := by
  obtain ⟨hevent, hpr, hcopies⟩ := hok.inPhase hphase rfl rfl
  have hcopy := hcopies _ rfl
  have hsettled := (h.records _ hpr).settled
  have horder : worker.phase.beforeReport = true := by rw [hphase]; rfl
  simp only [admittingStep]
  cases hlock : withLoopStateLock env.fault s.state none
      (admitHalfOpenProbe env.isProcessAlive env.randomUUID worker.ownerPid
        (eventKey worker.sessionID call.event) env.now call.correlation) with
  | mk state answer =>
    have hcases := fun answer h => @admitHalfOpenProbe_cases env.randomUUID env.isProcessAlive
      worker.ownerPid env.now (call.event.pullRequest worker.sessionID) call.correlation s.state
      answer hcopy h
    have hstate : s.state.Same state
        ∨ ∃ q, RecordMove (s.state.record (call.event.pullRequest worker.sessionID)) q
            ∧ state = s.state.put (call.event.pullRequest worker.sessionID).key q := by
      have hsection := @LoopInv.locked host limits stopped s h hstopped _ hpr _ env.fault none
        (admitHalfOpenProbe env.isProcessAlive env.randomUUID worker.ownerPid
          (eventKey worker.sessionID call.event) env.now call.correlation)
        (RecordMove (s.state.record (call.event.pullRequest worker.sessionID))) (by
          intro next hnext
          rcases hcases _ rfl with ⟨hnone, -⟩ | ⟨q, hmove, hput, -⟩
          · rw [key_pullRequest] at hnone
            rw [hnone] at hnext
            cases hnext
          · rw [key_pullRequest] at hput
            rw [hput] at hnext
            cases hnext
            exact ⟨q, rfl, hmove⟩)
      rw [hlock] at hsection
      rcases hsection with rfl | ⟨q, hmove, hput⟩
      · exact Or.inl (.refl _)
      · exact Or.inr ⟨q, hmove, hput⟩
    cases answer with
    | none =>
      refine CallStep.ends hevent hpr (.refl env worker) trivial (Or.inr rfl) ?_ hstate
      rintro copy ⟨⟩
      exact hcopy.behind hstate
    | some probe =>
      obtain ⟨hprobe, hwritten⟩ := @withLoopStateLock_answer _ env.fault s.state none
        (admitHalfOpenProbe env.isProcessAlive env.randomUUID worker.ownerPid
          (eventKey worker.sessionID call.event) env.now call.correlation) probe
        (by rw [hlock]) (fun h => nomatch h)
      rw [hlock] at hwritten
      have hknown : probe.correlation.CopyOf
          (state.record (call.event.pullRequest worker.sessionID)) := by
        rcases hcases _ rfl with ⟨hnone, hquiet⟩ | ⟨q, hmove, hput, hadmitted⟩
        · rw [key_pullRequest] at hnone hquiet
          rw [hnone] at hwritten
          rw [(hquiet probe hprobe).2, show state = s.state from hwritten]
          exact hcopy.current hsettled
        · rw [key_pullRequest] at hput hadmitted
          rw [hput] at hwritten
          rw [(hadmitted probe hprobe).2, show state = s.state.put _ q from
            hwritten.trans (h.written_put hstopped hpr q), LoopState.record_put_self]
          exact hmove.books.copyOf hsettled
      have hsame : SameCall env worker
          (if probe.probeStarted then
            { worker with
              halfOpenProbe := true
              probeOwnerToken := some env.randomUUID
              probeOwnerPid := some worker.ownerPid }
          else worker) := by
        split
        · exact ⟨rfl, rfl, rfl, Or.inr ⟨rfl, rfl⟩⟩
        · exact .refl env worker
      simp only
      split
      · refine CallStep.goes hevent hpr hsame rfl (fun _ => horder) rfl (Or.inr rfl) ?_ hstate
        rintro copy ⟨⟩
        exact hknown
      · refine CallStep.ends hevent hpr hsame trivial (Or.inr rfl) ?_ hstate
        rintro copy ⟨⟩
        exact hknown

theorem sequencingStep_step (hphase : worker.phase = .sequencing call) :
    CallStep host limits env id worker s.state (sequencingStep env worker s.state queue call) := by
  obtain ⟨hevent, hpr, hcopies⟩ := hok.inPhase hphase rfl rfl
  have hcopy := hcopies _ rfl
  have hquiet : s.state.Same { s.state with oversightSeq := s.state.oversightSeq + 1 } := ⟨rfl, rfl⟩
  have hwritten := hquiet.written (h.written hstopped)
  have hcurrent := hcopy.current (h.records _ hpr).settled
  simp only [sequencingStep, withLoopStateLock, hwritten, Option.map_some, Option.getD_some]
  cases env.fault with
  | none =>
    simp only [hwritten]
    refine CallStep.goes hevent hpr (.refl env worker) rfl (fun _ => by rw [hphase]; rfl) rfl
      (Or.inr rfl) ?_ (Or.inl hquiet)
    rintro copy ⟨⟩
    exact hcurrent
  | corrupt | lost =>
    exact CallStep.ends hevent hpr (.refl env worker) trivial (Or.inr rfl) hcopies
      (Or.inl (.refl _))
  | thrown =>
    exact CallStep.ends hevent hpr (.refl env worker) trivial (Or.inr rfl) hcopies
      (Or.inl hquiet)

theorem denyingStep_step {oversight : OversightOutcome}
    (hphase : worker.phase = .denying call oversight) : CallStep host limits env id worker s.state
      (denyingStep env worker s.state queue call oversight) := by
  obtain ⟨hevent, hpr, hcopies⟩ := hok.inPhase hphase rfl rfl
  have hcopy := hcopies _ rfl
  simp only [denyingStep]
  split
  · refine CallStep.ends hevent hpr (.refl env worker) trivial (Or.inr rfl) ?_ (Or.inl (.refl _))
    rintro copy ⟨⟩
    exact hcopy.withTerminal fun _ => rfl
  · obtain ⟨hstate, hknown⟩ := @endHalfOpenProbe_behind host limits stopped s h hstopped
      (call.event.pullRequest worker.sessionID) hpr
      (fun circuit => clearHalfOpenProbeMarker { circuit with openUntil := env.now + 60000 })
      env.fault worker.probeOwnerToken worker.probeOwnerPid call.correlation hcopy
    cases hlock : withLoopStateLock env.fault s.state (some none)
        (finishHalfOpenProbe env.now false (eventKey worker.sessionID call.event)
          worker.probeOwnerToken worker.probeOwnerPid) with
    | mk state answer =>
      have hlock' : withLoopStateLock env.fault s.state (some none)
          (endHalfOpenProbe
            (fun circuit => clearHalfOpenProbeMarker { circuit with openUntil := env.now + 60000 })
            (call.event.pullRequest worker.sessionID).key worker.probeOwnerToken
            worker.probeOwnerPid) = (state, answer) := hlock
      rw [hlock'] at hstate hknown
      cases answer with
      | none =>
        refine CallStep.ends hevent hpr (.refl env worker) trivial (Or.inr rfl) ?_ hstate
        rintro copy ⟨⟩
        exact hknown
      | some correlation =>
        refine CallStep.ends hevent hpr (.refl env worker) trivial (Or.inr rfl) ?_ hstate
        rintro copy ⟨⟩
        exact hknown.withTerminal fun _ => rfl

theorem approvedStep_step (hphase : worker.phase = .approved call) :
    CallStep host limits env id worker s.state
      (approvedStep host env id worker s.state queue call) := by
  obtain ⟨hevent, hpr, hcopies⟩ := hok.inPhase hphase rfl rfl
  have hcopy := hcopies _ rfl
  have horder : worker.phase.beforeReport = true := by rw [hphase]; rfl
  have hsettled := (h.records _ hpr).settled
  have hidle : ∀ answer, (admittedPhase id worker call answer).Ends →
      (admittedPhase id worker call answer).event = some call.event →
      (∀ copy, (admittedPhase id worker call answer).copy = some copy →
        copy.CopyOf (s.state.record (call.event.pullRequest worker.sessionID))) →
      CallStep host limits env id worker s.state
        (goesOn worker s.state queue (admittedPhase id worker call answer)) :=
    fun answer hends hphase' hcopies =>
      CallStep.ends hevent hpr (.refl env worker) hends (Or.inr hphase') hcopies
        (Or.inl (.refl _))
  have hunavailable := hidle (some .unavailable) trivial rfl hcopies
  have hthrown := hidle none trivial rfl hcopies
  have hcase : AdmitCase host.budget env.isProcessAlive (call.event.pullRequest worker.sessionID)
      (call.reservation env id worker) call.correlation s.state
      (admitFinally host.budget env.isProcessAlive env.localCancellation
        (hasExactDurableClaim id worker queue call.event.dedupToken)
        (eventKey worker.sessionID call.event) worker.sessionID call.event.repoFullName
        call.event.prNumber (call.reservation env id worker) call.correlation s.state) :=
    admitFinally_case hcopy
  simp only [approvedStep, withLoopStateLock]
  generalize admitFinally host.budget env.isProcessAlive env.localCancellation
    (hasExactDurableClaim id worker queue call.event.dedupToken)
    (eventKey worker.sessionID call.event) worker.sessionID call.event.repoFullName
    call.event.prNumber (call.reservation env id worker) call.correlation s.state = answer
    at hcase ⊢
  cases hcase with
  | cancelled reason =>
    cases env.fault with
    | none => exact hidle (some (.cancelled reason)) trivial rfl (fun _ h => nomatch h)
    | corrupt => exact hunavailable
    | lost | thrown => exact hthrown
  | claimLost =>
    cases env.fault with
    | none =>
      refine hidle (some (.claimLost _)) trivial rfl ?_
      rintro copy ⟨⟩
      exact hcopy.current hsettled
    | corrupt => exact hunavailable
    | lost | thrown => exact hthrown
  | retryable =>
    cases env.fault with
    | none => exact hidle (some .retryable) trivial rfl (fun _ h => nomatch h)
    | corrupt => exact hunavailable
    | lost | thrown => exact hthrown
  | admitted free q hfree hroom hmove hcancel =>
    have hput := h.written_put hstopped hpr q
    rw [key_pullRequest] at hput
    have hq := hmove.books.copyOf hsettled
    rw [key_pullRequest, Option.map_some, Option.getD_some, hput]
    cases env.fault with
    | none =>
      simp only [admittedPhase]
      split
      · refine CallStep.of_move hpr (fun _ => horder) ?_ (Or.inr rfl) ?_
          (.reserved call hphase free q hmove hfree hroom hcancel rfl rfl rfl)
        · rintro held ⟨⟩
          exact ⟨Or.inl hphase, rfl, rfl⟩
        · rintro copy ⟨⟩
          rw [← key_pullRequest, LoopState.record_put_self]
          exact hq
      · refine CallStep.of_move hpr (fun _ => horder) (fun _ h => nomatch h) (Or.inr rfl) ?_
          (.reserved call hphase free q hmove hfree hroom hcancel rfl rfl rfl)
        rintro copy ⟨⟩
        rw [← key_pullRequest, LoopState.record_put_self]
        exact hq
    | corrupt => exact hunavailable
    | lost => exact hthrown
    | thrown =>
      refine CallStep.of_move hpr (fun _ => horder) (fun _ h => nomatch h) (Or.inr rfl) ?_
        (.reserved call hphase free q hmove hfree hroom hcancel rfl rfl rfl)
      rintro copy ⟨⟩
      rw [← key_pullRequest, LoopState.record_put_self]
      exact hcopy.later hmove.books.toPrecedes

/-- The mark is written once, and the call acts only behind it. -/
theorem markingStep_step (hphase : worker.phase = .marking call) :
    CallStep host limits env id worker s.state (markingStep env id worker s.state queue call) := by
  obtain ⟨hevent, hpr, hcopies⟩ := hok.inPhase hphase rfl rfl
  have hcopy := hcopies _ rfl
  have horder : worker.phase.beforeReport = true := by rw [hphase]; rfl
  have hsettled := (h.records _ hpr).settled
  have hput := fun q => h.written_put hstopped hpr q
  have hcase := markExact_case id worker.sessionID call.event.dedupToken
    (call.event.pullRequest worker.sessionID) worker.ownerPid env.now env.localCancellation
    env.cancellationDuringWrite (hasExactDurableClaim id worker queue call.event.dedupToken)
    s.state
  simp only [markingStep, withLoopStateLock]
  rw [key_pullRequest] at hcase
  generalize markExactReservationActionStarted env.now env.localCancellation
    env.cancellationDuringWrite (hasExactDurableClaim id worker queue call.event.dedupToken)
    (eventKey worker.sessionID call.event) worker.sessionID call.event.dedupToken id
    worker.ownerPid s.state = answer at hcase ⊢
  -- a section that does not reach its write leaves the document and the log
  have hunavailable : CallStep host limits env id worker s.state
      (goesOn worker s.state queue (markedPhase env call (some .unavailable))) :=
    CallStep.of_move hpr (fun h => nomatch h) (fun _ h => nomatch h) (Or.inr rfl) hcopies
      (.quiet (.refl _) rfl rfl)
  have hlost : CallStep host limits env id worker s.state
      (goesOn worker s.state queue (markedPhase env call none)) :=
    CallStep.of_move hpr (fun _ => horder) (fun _ h => nomatch h) (Or.inr rfl) hcopies
      (.quiet (.refl _) rfl rfl)
  have hbehind : ∀ q, (s.state.record (call.event.pullRequest worker.sessionID)).SameBooks q →
      ∀ copy, some call.correlation = some copy →
        copy.CopyOf ((s.state.put (eventKey worker.sessionID call.event) q).record
          (call.event.pullRequest worker.sessionID)) := by
    rintro q hbooks copy ⟨⟩
    rw [← key_pullRequest, LoopState.record_put_self]
    exact hcopy.later hbooks.toPrecedes
  cases hcase with
  | missing =>
    cases env.fault with
    | none =>
      exact CallStep.of_move hpr (fun h => nomatch h) (fun _ h => nomatch h) (Or.inr rfl)
        (fun _ h => nomatch h) (.quiet (.refl _) rfl rfl)
    | corrupt => exact hunavailable
    | lost => exact hlost
    | thrown => exact hlost
  | blocked =>
    cases env.fault with
    | none =>
      refine CallStep.of_move hpr (fun h => nomatch h) (fun _ h => nomatch h) (Or.inr rfl) ?_
        (.quiet (.refl _) rfl rfl)
      rintro copy ⟨⟩
      exact .refl hsettled
    | corrupt => exact hunavailable
    | lost => exact hlost
    | thrown => exact hlost
  | lost q hmove =>
    rw [Option.map_some, Option.getD_some, hput]
    cases env.fault with
    | none =>
      refine CallStep.of_move hpr (fun h => nomatch h) (fun _ h => nomatch h) (Or.inr rfl) ?_
        (.moved call.event hevent q hmove rfl (Or.inl rfl) rfl)
      rintro copy ⟨⟩
      show q.CopyOf ((s.state.put (call.event.pullRequest worker.sessionID).key q).record _)
      rw [LoopState.record_put_self]
      exact hmove.books.copyOf hsettled
    | corrupt => exact hunavailable
    | lost => exact hlost
    | thrown =>
      exact CallStep.of_move hpr (fun _ => horder) (fun _ h => nomatch h) (Or.inr rfl)
        (hbehind q hmove.books) (.moved call.event hevent q hmove rfl (Or.inl rfl) rfl)
  | cancelled q hmove reason =>
    rw [Option.map_some, Option.getD_some, hput]
    cases env.fault with
    | none =>
      exact CallStep.of_move hpr (fun h => nomatch h) (fun _ h => nomatch h) (Or.inr rfl)
        (fun _ h => nomatch h) (.moved call.event hevent q hmove rfl (Or.inl rfl) rfl)
    | corrupt => exact hunavailable
    | lost => exact hlost
    | thrown =>
      exact CallStep.of_move hpr (fun _ => horder) (fun _ h => nomatch h) (Or.inr rfl)
        (hbehind q hmove.books) (.moved call.event hevent q hmove rfl (Or.inl rfl) rfl)
  | retracted q hmove reason hcancel =>
    rw [Option.map_some, Option.getD_some, hput]
    cases env.fault with
    | none =>
      exact CallStep.of_move hpr (fun h => nomatch h) (fun _ h => nomatch h) (Or.inr rfl)
        (fun _ h => nomatch h)
        (.moved call.event hevent q hmove rfl (Or.inr ⟨rfl, hcancel⟩) rfl)
    | corrupt => exact hunavailable
    | lost => exact hlost
    | thrown =>
      exact CallStep.of_move hpr (fun _ => horder) (fun _ h => nomatch h) (Or.inr rfl)
        (hbehind q hmove.books)
        (.moved call.event hevent q hmove rfl (Or.inr ⟨rfl, hcancel⟩) rfl)
  | started q hmove hcancel =>
    rw [Option.map_some, Option.getD_some, hput]
    cases env.fault with
    | none =>
      refine CallStep.of_move hpr (fun _ => horder) ?_ (Or.inr rfl) ?_
        (.marked call hphase q hmove hcancel rfl rfl (Or.inr rfl))
      · rintro held ⟨⟩
        exact ⟨Or.inr (by rw [hphase]; rfl), rfl, rfl⟩
      · rintro copy ⟨⟩
        show q.CopyOf ((s.state.put (call.event.pullRequest worker.sessionID).key q).record _)
        rw [LoopState.record_put_self]
        exact hmove.books.copyOf hsettled
    | corrupt => exact hunavailable
    | lost => exact hlost
    | thrown =>
      exact CallStep.of_move hpr (fun _ => horder) (fun _ h => nomatch h) (Or.inr rfl)
        (hbehind q hmove.books) (.marked call hphase q hmove hcancel rfl rfl (Or.inl rfl))

theorem actedStep_step {outcome : PerformOutcome} (hphase : worker.phase = .acted call outcome) :
    CallStep host limits env id worker s.state
      (actedStep host env id worker s.state queue call outcome) := by
  obtain ⟨hevent, hpr, hcopies⟩ := hok.inPhase hphase rfl rfl
  have hcopy := hcopies _ rfl
  have hput := fun q => h.written_put hstopped hpr q
  have hcase : SettleCase id worker.ownerPid outcome.performed (call.action.digest host.sha256)
      (call.event.pullRequest worker.sessionID) s.state
      (settleAction env.now worker.probe outcome (call.action.digest host.sha256)
        (eventKey worker.sessionID call.event) worker.sessionID id worker.ownerPid
        call.correlation s.state) := settleAction_case hcopy
  simp only [actedStep, withLoopStateLock]
  generalize settleAction env.now worker.probe outcome (call.action.digest host.sha256)
    (eventKey worker.sessionID call.event) worker.sessionID id worker.ownerPid
    call.correlation s.state = answer at hcase ⊢
  have habandon : CallStep host limits env id worker s.state
      (goesOn worker s.state queue (.abandoning call.event false)) :=
    CallStep.of_move hpr (fun h => nomatch h) (fun _ h => nomatch h) (Or.inr rfl)
      (fun _ h => nomatch h) (.quiet (.refl _) rfl rfl)
  cases hcase with
  | lost =>
    cases env.fault with
    | none | corrupt | lost | thrown => exact habandon
  | settled q hmove =>
    rw [Option.map_some, Option.getD_some, hput]
    cases env.fault with
    | none =>
      refine ⟨⟨rfl, rfl, rfl, Or.inl ⟨rfl, rfl⟩⟩, ⟨fun _ h => (nomatch h),
        fun _ _ h => (nomatch h), fun h => (nomatch h), fun _ h => nomatch h⟩, ?_⟩
      exact .settled call outcome hphase q hmove rfl rfl rfl
    | corrupt | lost => exact habandon
    | thrown =>
      exact CallStep.of_move hpr (fun h => nomatch h) (fun _ h => nomatch h) (Or.inr rfl)
        (fun _ h => nomatch h) (.settled call outcome hphase q hmove rfl rfl rfl)

theorem clearingStep_step {startedAt : Option Int} {refusal : Option LoopTerminal}
    (hphase : worker.phase = .clearing call startedAt refusal) :
    CallStep host limits env id worker s.state
      (clearingStep env id worker s.state queue call startedAt refusal) := by
  obtain ⟨hevent, hpr, hcopies⟩ := hok.inPhase hphase rfl rfl
  have hcopy := hcopies _ rfl
  have hlocked := @LoopInv.locked host limits stopped s h hstopped _ hpr _ env.fault (some false)
    (clearExactPreStartReservation (eventKey worker.sessionID call.event) call.event.dedupToken
      id worker.ownerPid startedAt)
    (ClearMove id (s.state.record (call.event.pullRequest worker.sessionID)))
    fun next hnext => clearExactPreStartReservation_moves hnext
  -- the call ends the same way, whatever the document is behind the section
  have hgo : ∀ state, call.correlation.CopyOf
        (state.record (call.event.pullRequest worker.sessionID)) →
      (∀ phase : LoopPhase, phase.Ends → CallMove host env id worker s.state
        { state := state, queue := queue, worker := worker.at_ phase, log := [] }) →
      CallStep host limits env id worker s.state
          (goesOn worker state queue (.abandoning call.event false))
        ∧ ∀ terminal, CallStep host limits env id worker s.state
          (goesOn worker state queue (.refusing call.event call.correlation terminal)) := by
    intro state hknown hmove
    refine ⟨CallStep.of_move hpr (fun h => nomatch h) (fun _ h => nomatch h) (Or.inr rfl)
      (fun _ h => nomatch h) (hmove _ trivial), fun terminal => ?_⟩
    refine CallStep.of_move hpr (fun h => nomatch h) (fun _ h => nomatch h) (Or.inr rfl) ?_
      (hmove _ trivial)
    rintro copy ⟨⟩
    exact hknown
  have hboth : CallStep host limits env id worker s.state
        (goesOn worker (withLoopStateLock env.fault s.state (some false)
          (clearExactPreStartReservation (eventKey worker.sessionID call.event)
            call.event.dedupToken id worker.ownerPid startedAt)).1 queue
          (.abandoning call.event false))
      ∧ ∀ terminal, CallStep host limits env id worker s.state
        (goesOn worker (withLoopStateLock env.fault s.state (some false)
          (clearExactPreStartReservation (eventKey worker.sessionID call.event)
            call.event.dedupToken id worker.ownerPid startedAt)).1 queue
          (.refusing call.event call.correlation terminal)) := by
    rcases hlocked with hsame | ⟨q, hmove, hput⟩
    · rw [hsame]
      exact hgo s.state hcopy fun phase hends => .quiet (.refl _) rfl hends.facts.1
    · rw [hput]
      refine hgo _ ?_ fun phase hends =>
        .cleared call startedAt refusal hphase q hmove rfl rfl hends.facts.1
      rw [LoopState.record_put_self]
      exact hcopy.later hmove.books.toPrecedes
  cases refusal with
  | none => exact hboth.1
  | some terminal => exact hboth.2 (some terminal)

theorem refusingStep_step {terminal : Option LoopTerminal}
    (hphase : worker.phase = .refusing event correlation terminal) :
    CallStep host limits env id worker s.state
      (refusingStep env worker s.state queue event correlation terminal) := by
  obtain ⟨hevent, hpr, hcopies⟩ := hok.inPhase hphase rfl rfl
  have hcopy := hcopies _ rfl
  have hstate := @releaseAdmittedProbe_state host limits stopped s env worker h hstopped event hpr
    correlation
  have hknown := @releaseAdmittedProbe_copy host limits stopped s env worker h hstopped event hpr
    correlation hcopy
  refine CallStep.ends hevent hpr (.withoutProbe env worker) trivial (Or.inr rfl) ?_ hstate
  rintro copy ⟨⟩
  refine hknown.withTerminal fun hsome => ?_
  cases terminal with
  | none => exact hsome
  | some terminal => rfl

theorem persistingStep_step (hphase : worker.phase = .persisting event correlation) :
    CallStep host limits env id worker s.state
      (persistingStep env worker s.state queue event correlation) := by
  obtain ⟨hevent, hpr, hcopies⟩ := hok.inPhase hphase rfl rfl
  have hcopy := hcopies _ rfl
  have hlocked := @LoopInv.locked host limits stopped s h hstopped _ hpr _ env.fault none
    (persistCorrelation (eventKey worker.sessionID event) correlation)
    (RecordMove (s.state.record (event.pullRequest worker.sessionID)))
    fun next hnext => persistCorrelation_moves hcopy hnext
  refine CallStep.ends hevent hpr (.refl env worker) trivial (Or.inl rfl) (fun _ h => nomatch h) ?_
  rcases hlocked with hsame | hmoved
  · left
    rw [hsame]
    exact .refl _
  · exact Or.inr hmoved

theorem abandoningStep_step {unclaim : Bool} (hphase : worker.phase = .abandoning event unclaim) :
    CallStep host limits env id worker s.state
      (abandoningStep env worker s.state queue event unclaim) := by
  have hevent : worker.phase.event = some event := by rw [hphase]; rfl
  have hpr := hok.event event hevent
  have hstate := @releaseAdmittedProbe_state host limits stopped s env worker h hstopped event hpr
    (newCorrelation worker.sessionID event.repoFullName event.prNumber)
  cases unclaim with
  | false =>
    exact CallStep.ends hevent hpr (.withoutProbe env worker) trivial (Or.inl rfl)
      (fun _ h => nomatch h) hstate
  | true =>
    exact CallStep.ends hevent hpr (.withoutProbe env worker) trivial (Or.inr rfl)
      (fun _ h => nomatch h) hstate

end Locked

/-- Whatever phase a call is in, its step keeps the invariant. -/
theorem callStep_step (h : LoopInv host limits stopped s)
    (hstopped : stopped.length ≤ MAX_TRACKED_SESSIONS) (hworker : s.workers id = some worker)
    (hlimits : limits.Admit host s (.step id env)) {e : LoopEffect}
    (he : callStep host env id worker s.state queue = some e) :
    CallStep host limits env id worker s.state e := by
  have hok := h.workers id worker hworker
  unfold callStep at he
  cases hphase : worker.phase <;> rw [hphase] at he <;> cases he
  case claiming => exact claimingStep_step hphase
  case reading =>
    have hpr := hlimits worker hworker
    rw [hphase] at hpr
    exact readingStep_step h hphase hpr
  case checking => exact checkingStep_step hok hphase
  case evaluating => exact evaluatingStep_step hok hphase
  case admitting => exact admittingStep_step h hstopped hok hphase
  case barrier => exact barrierStep_step hok hphase
  case sequencing => exact sequencingStep_step h hstopped hok hphase
  case overseeing => exact overseeingStep_step hok hphase
  case denying => exact denyingStep_step h hstopped hok hphase
  case approved => exact approvedStep_step h hstopped hok hphase
  case reserved => exact reservedStep_step hok hphase
  case marking => exact markingStep_step h hstopped hok hphase
  case started => exact startedStep_step hok hphase
  case performing => exact performingStep_step hok hphase
  case acted => exact actedStep_step h hstopped hok hphase
  case clearing => exact clearingStep_step h hstopped hok hphase
  case refusing => exact refusingStep_step h hstopped hok hphase
  case persisting => exact persistingStep_step h hstopped hok hphase
  case abandoning => exact abandoningStep_step h hstopped hok hphase
  case unclaiming => exact unclaimingStep_step hok hphase

end Steps

end OpencodeSwarm
