/-
  OpencodeSwarm.PrFeedback.FeedbackLoop

  Calls of `claimAndProcessPrFeedbackEvent` and `cancelPrFeedbackLoop` by any
  number of processes over one loop state.  Every critical section, every unlocked
  read and every call of the performer is one step of its call; the local code up
  to the next of them belongs to the step.

  `withSettlementLock`, which lets the calls of one process for one session take
  turns, is not modelled: calls of two processes interleave as all calls do here.
-/
import OpencodeSwarm.Lib.Transition
import OpencodeSwarm.PrFeedback.LoopState

namespace OpencodeSwarm

open Js

/-! ## Events and verdicts -/

/-- `SUPPORTED_EVENT_ACTION`. -/
def supportedEventAction (type : JsString) : Option JsString :=
  if type = js "pr.ci.failed" then some (js "fix_ci")
  else if type = js "pr.merge.conflict" then some (js "resolve_conflict")
  else if type = js "pr.new.comment" then some (js "address_comment")
  else none

/-- What reading the active subscriptions of the session and pull request gives. -/
inductive SubscriptionSnapshotRead where
  | failed
  | noRecord
  | record (headRefOid : Option JsString)
  deriving DecidableEq

/-- What the two reads say about the event. -/
inductive SnapshotSync where
  | retryable
  | foreign
  | synchronized (headRefOid : Option JsString)

/-- The foreign and stale part of the authorization, with its one delayed
    re-read. -/
def synchronizeSnapshot (head : JsString) (first reread : SubscriptionSnapshotRead) :
    SnapshotSync :=
  match first, reread with
  | .record headRefOid, second =>
    if headRefOid = some head then .synchronized headRefOid
    else if second = .record (some head) then .synchronized (some head)
    else .retryable
  | _, .record headRefOid =>
    if headRefOid = some head then .synchronized headRefOid else .retryable
  | _, .noRecord => .foreign
  | _, .failed => .retryable

/-- `DispatchOversightOutcome`. -/
structure OversightOutcome where
  dispatched : Bool
  verdict : Option JsString
  decision : Option JsString

/-- `toLowerCase` on ASCII; no other code unit folds into the words compared. -/
def asciiLower (text : JsString) : JsString :=
  text.map fun unit => if 0x41 ≤ unit ∧ unit ≤ 0x5A then unit + 0x20 else unit

def isStrictOversightApproval (outcome : OversightOutcome) : Bool :=
  let decision := asciiLower (trim (outcome.decision.getD []))
  let verdict := asciiLower (trim (outcome.verdict.getD []))
  outcome.dispatched && (decision == js "allow" || decision == js "approve")
    && (verdict.isEmpty || verdict == js "approve" || verdict == js "approved")

/-! ## Calls -/

/-- What a call carries behind its authorization. -/
structure LoopCall where
  event : PrFeedbackMonitorEvent
  correlation : CorrelationState
  head : JsString

/-- The next section, read or call of `claimAndProcessPrFeedbackEventUnlocked`. -/
inductive LoopPhase where
  /-- `claimPrFeedbackMonitorEvents`. -/
  | claiming (pending : PrFeedbackMonitorEvent)
  /-- The first `readState`. -/
  | reading (event : PrFeedbackMonitorEvent)
  /-- The cancellation barrier behind the claim. -/
  | checking (event : PrFeedbackMonitorEvent) (state : LoopState) (correlation : CorrelationState)
  /-- `evaluateCurrentHead`, the subscription reads and the authorization. -/
  | evaluating (event : PrFeedbackMonitorEvent) (state : LoopState)
      (correlation : CorrelationState)
  | admitting (call : LoopCall)
  /-- The cancellation barrier before oversight. -/
  | barrier (call : LoopCall)
  /-- `oversightSeq`. -/
  | sequencing (call : LoopCall)
  | overseeing (call : LoopCall)
  /-- `finishHalfOpenProbe` of a denied call. -/
  | denying (call : LoopCall) (oversight : OversightOutcome)
  | approved (call : LoopCall)
  /-- The local cancellation check behind the final admission. -/
  | reserved (call : LoopCall)
  | marking (call : LoopCall)
  /-- The local cancellation check before the performer. -/
  | started (call : LoopCall) (actionStartedAt : Int)
  /-- `performAuthorizedAction`, for the `attempt`-th time. -/
  | performing (call : LoopCall) (attempt : Nat)
  | acted (call : LoopCall) (outcome : PerformOutcome)
  /-- `clearExactPreStartReservation`, then a cancelled or a refused result. -/
  | clearing (call : LoopCall) (actionStartedAt : Option Int) (refusal : Option LoopTerminal)
  /-- `refuseAuthorization`. -/
  | refusing (event : PrFeedbackMonitorEvent) (correlation : CorrelationState)
      (terminal : Option LoopTerminal)
  | persisting (event : PrFeedbackMonitorEvent) (correlation : CorrelationState)
  /-- `releaseAdmittedProbe` before a result that writes no correlation. -/
  | abandoning (event : PrFeedbackMonitorEvent) (unclaim : Bool)
  /-- `releasePrFeedbackMonitorEventClaim`. -/
  | unclaiming (event : PrFeedbackMonitorEvent)
  | returned

/-- One call, known by the workflow instance it draws; a crash of its process
    leaves it where it stands.  The probe owner stays after the probe ended. -/
structure LoopWorker where
  sessionID : JsString
  ownerPid : Nat
  crashed : Bool
  halfOpenProbe : Bool
  probeOwnerToken : Option JsString
  probeOwnerPid : Option Nat
  phase : LoopPhase

/-- The tuple behind an action digest. -/
structure FeedbackAction where
  type : JsString
  repoFullName : JsString
  prNumber : Nat
  head : JsString
  actionClass : JsString
  deriving DecidableEq

/-- What happened; no code reads it. -/
inductive LoopRecord where
  /-- The cancellation of the session is durable. -/
  | cancelled (sessionID : JsString)
  /-- An action-start marker of the session was written. -/
  | started (sessionID workflowInstanceId : JsString)
  /-- The performer reported `performed`. -/
  | performed (sessionID : JsString) (action : FeedbackAction) (workflowInstanceId : JsString)
  deriving DecidableEq

structure LoopWorld where
  state : LoopState
  queues : JsString → Option PrFeedbackQueueRecord
  workers : JsString → Option LoopWorker
  log : List LoopRecord

/-- No state file, no queue and no call. -/
def LoopWorld.initial : LoopWorld where
  state := emptyLoopState
  queues := fun _ => none
  workers := fun _ => none
  log := []

/-- What the loop asks of its surroundings. -/
structure LoopHost where
  queue : QueueHost
  sha256 : JsString → JsString
  budget : LoopBudget

/-- What the surroundings answer during one step. -/
structure LoopEnv where
  fault : LoopFault
  now : Int
  isoNow : JsString
  isProcessAlive : Nat → Bool
  localCancellation : Option JsString
  cancellationDuringWrite : Option JsString
  head : Option JsString
  firstSnapshot : SubscriptionSnapshotRead
  secondSnapshot : SubscriptionSnapshotRead
  randomUUID : JsString
  oversight : OversightOutcome
  evidenceWritten : Bool
  performer : PerformOutcome

namespace LoopCall

/-- The class of a supported event. -/
def actionClass (call : LoopCall) : JsString := (supportedEventAction call.event.type).getD []

def action (call : LoopCall) : FeedbackAction where
  type := call.event.type
  repoFullName := call.event.repoFullName
  prNumber := call.event.prNumber
  head := call.head
  actionClass := call.actionClass

end LoopCall

/-- `digestFor` of an action. -/
def FeedbackAction.digest (sha256 : JsString → JsString) (action : FeedbackAction) : JsString :=
  digestFor sha256 action.type action.repoFullName action.prNumber (some action.head)
    action.actionClass

/-- The correlation key of an event of a session. -/
def eventKey (sessionID : JsString) (event : PrFeedbackMonitorEvent) : JsString :=
  correlationKey sessionID event.repoFullName event.prNumber

/-! ## One step of a call -/

/-- What one step leaves behind. -/
structure LoopEffect where
  state : LoopState
  queue : Option PrFeedbackQueueRecord
  worker : LoopWorker
  log : List LoopRecord

namespace LoopWorker

def at_ (worker : LoopWorker) (phase : LoopPhase) : LoopWorker := { worker with phase := phase }

/-- `halfOpenProbe = false`. -/
def withoutProbe (worker : LoopWorker) : LoopWorker := { worker with halfOpenProbe := false }

/-- The probe that the settlement may clear. -/
def probe (worker : LoopWorker) : Option (Option JsString × Option Nat) :=
  if worker.halfOpenProbe then some (worker.probeOwnerToken, worker.probeOwnerPid) else none

end LoopWorker

section Step

variable (host : LoopHost) (env : LoopEnv) (id : JsString) (worker : LoopWorker)
  (state : LoopState) (queue : Option PrFeedbackQueueRecord)

/-- The step writes nothing and the call goes on. -/
def goesOn (phase : LoopPhase) : LoopEffect :=
  { state, queue, worker := worker.at_ phase, log := [] }

/-- The reason `readFreshCancellationStatus` finds; `none` when it is unavailable. -/
def readFreshCancellationStatus : Option (Option JsString) :=
  match env.localCancellation with
  | some requested => some (some requested)
  | none =>
    if env.fault = .none then
      some ((state.cancellation worker.sessionID).map fun terminal =>
        reasonOr terminal.reason (js "operator cancellation"))
    else none

def hasExactDurableClaim (dedupToken : JsString) : Bool :=
  queue.any fun record => record.events.any (isClaimedBy dedupToken id worker.ownerPid)

/-- The claim of one event; anything but exactly that event ends the call. -/
def claimingStep (pending : PrFeedbackMonitorEvent) : LoopEffect :=
  let request : QueueClaim :=
    { workflowInstanceId := id
      prUrl := pending.prUrl
      dedupTokens := some [pending.dedupToken]
      ownerPid := worker.ownerPid
      claimedAt := env.isoNow
      isProcessAlive := env.isProcessAlive }
  match env.fault, claimEvents host.queue request queue with
  | .none, some record =>
    -- the events of the next record that are this call's
    match record.events.filter fun event =>
        event.claimedWorkflowInstanceId == some (trim id)
          && event.claimedOwnerPid == some worker.ownerPid
          && host.queue.canonicalPrUrl event.prUrl == host.queue.canonicalPrUrl pending.prUrl
          && decide (event.dedupToken ∈ [trim pending.dedupToken]) with
    | [event] =>
      if event.dedupToken = pending.dedupToken && event.claimedWorkflowInstanceId == some id then
        { state, queue := some record, worker := worker.at_ (.reading event), log := [] }
      else { state, queue := some record, worker := worker.at_ .returned, log := [] }
    | _ => { state, queue := some record, worker := worker.at_ .returned, log := [] }
  | .thrown, some record =>
    { state, queue := some record, worker := worker.at_ .returned, log := [] }
  | _, _ => goesOn worker state queue .returned

def readingStep (event : PrFeedbackMonitorEvent) : LoopEffect :=
  match env.fault with
  | .none =>
    let correlation := (state.correlations.get? (eventKey worker.sessionID event)).getD
      (newCorrelation worker.sessionID event.repoFullName event.prNumber)
    goesOn worker state queue (.checking event
      (state.put (eventKey worker.sessionID event) correlation) correlation)
  | .corrupt => goesOn worker state queue .returned
  | _ => goesOn worker state queue (.unclaiming event)

/-- A cancelled session ends the call, an unauthorized event is refused. -/
def checkingStep (event : PrFeedbackMonitorEvent) (snapshot : LoopState)
    (correlation : CorrelationState) : LoopEffect :=
  match readFreshCancellationStatus env worker state with
  | some none =>
    if event.authorized then
      goesOn worker state queue (.evaluating event snapshot correlation)
    else
      goesOn worker state queue (.persisting event { correlation with
        terminal := some
          { state := .refused
            reason := js "event is not authorized for autonomous PR feedback; no action performed" } })
  | _ => goesOn worker state queue .returned

/-- The authorization by replay, budgets and circuit. -/
def authorizeEvent (event : PrFeedbackMonitorEvent) (snapshot : LoopState)
    (correlation : CorrelationState) (head : JsString) : LoopPhase :=
  let call : LoopCall := { event, correlation, head }
  let sessionActionsUsed := snapshot.sessionActionsUsed worker.sessionID
  if call.action.digest host.sha256 ∈ correlation.processedDigests then
    if correlation.terminal.isSome then .returned
    else
      .persisting event { correlation with
        terminal := some
          { state := .completed
            reason := js "restored after interruption: authorized feedback action was performed"
              ++ js " and recorded; terminal re-recorded without re-performing" }
        inFlight := none }
  else if host.budget.maxSessionActions ≤ sessionActionsUsed
      ∨ host.budget.maxActionsPerPr ≤ correlation.prActionsUsed then
    .refusing event correlation (some
      { state := .pausedForHuman
        reason := js "budget exhausted (session " ++ js (toString sessionActionsUsed) ++ js "/"
          ++ js (toString host.budget.maxSessionActions) ++ js ", pr "
          ++ js (toString correlation.prActionsUsed) ++ js "/"
          ++ js (toString host.budget.maxActionsPerPr) ++ js ")" })
  else if env.now < correlation.circuit.openUntil then
    .refusing event correlation (some
      { state := .degraded
        reason := js "circuit open until " ++ js (toString correlation.circuit.openUntil)
          ++ js " (failures: " ++ js (toString correlation.circuit.failures) ++ js ")" })
  else .admitting call

/-- The event against the head of the pull request. -/
def evaluatingStep (event : PrFeedbackMonitorEvent) (snapshot : LoopState)
    (correlation : CorrelationState) : LoopEffect :=
  goesOn worker state queue <|
    match supportedEventAction event.type, env.head with
    | none, _ =>
      .persisting event { correlation with
        terminal := some
          { state := .refused
            reason := js "unsupported monitor event type: " ++ event.type } }
    | some _, none => .unclaiming event
    | some _, some head =>
      match synchronizeSnapshot head env.firstSnapshot env.secondSnapshot with
      | .retryable => .unclaiming event
      | .foreign => .refusing event correlation none
      | .synchronized headRefOid =>
        if event.headRefOid ≠ some head ∨ (headRefOid.isSome ∧ headRefOid ≠ some head) then
          .refusing event correlation none
        else authorizeEvent host env worker event snapshot correlation head

/-- The circuit lets the call pass, as its half-open probe or not. -/
def admittingStep (call : LoopCall) : LoopEffect :=
  let key := eventKey worker.sessionID call.event
  match withLoopStateLock env.fault state none
      (admitHalfOpenProbe env.isProcessAlive env.randomUUID worker.ownerPid key env.now
        call.correlation) with
  | (state, none) =>
    goesOn worker state queue (.refusing call.event call.correlation (some
      { state := .pausedForHuman, reason := js "half-open admission failed — paused for a human" }))
  | (state, some probe) =>
    let admitted : LoopWorker :=
      if probe.probeStarted then
        { worker with
          halfOpenProbe := true
          probeOwnerToken := some env.randomUUID
          probeOwnerPid := some worker.ownerPid }
      else worker
    if probe.allowed then
      goesOn admitted state queue (.barrier { call with correlation := probe.correlation })
    else
      goesOn admitted state queue (.refusing call.event probe.correlation (some
        { state := .degraded
          reason :=
            if probe.open_ then
              js "circuit open until " ++ js (toString probe.correlation.circuit.openUntil)
            else js "half-open probe already in progress" }))

def barrierStep (call : LoopCall) : LoopEffect :=
  match readFreshCancellationStatus env worker state with
  | some none => goesOn worker state queue (.sequencing call)
  | some (some _) => goesOn worker state queue (.abandoning call.event false)
  | none =>
    goesOn worker state queue (.refusing call.event call.correlation (some
      { state := .pausedForHuman
        reason := js "cancellation admission state unavailable — paused for a human" }))

/-- The oversight number, drawn under the lock. -/
def sequencingStep (call : LoopCall) : LoopEffect :=
  match withLoopStateLock env.fault state none fun fresh =>
      let next := { fresh with oversightSeq := fresh.oversightSeq + 1 }
      (some next, some next) with
  | (state, none) =>
    goesOn worker state queue (.refusing call.event call.correlation (some
      { state := .pausedForHuman
        reason := js "oversight sequence admission failed — paused for a human" }))
  | (state, some fresh) =>
    goesOn worker state queue (.overseeing { call with
      correlation :=
        (fresh.written.correlations.get? (eventKey worker.sessionID call.event)).getD
          call.correlation })

def overseeingStep (call : LoopCall) : LoopEffect :=
  goesOn worker state queue <|
    if !env.evidenceWritten then
      .refusing call.event call.correlation (some
        { state := .pausedForHuman
          reason := js "oversight evidence write failed — paused for a human" })
    else if isStrictOversightApproval env.oversight then .approved call
    else .denying call env.oversight

/-- A denial ends the probe and pauses the loop for a human. -/
def denyingStep (call : LoopCall) (oversight : OversightOutcome) : LoopEffect :=
  let key := eventKey worker.sessionID call.event
  let terminal : LoopTerminal :=
    { state := .pausedForHuman
      reason := js "oversight denial/pending: oversight did not approve (dispatched="
        ++ js (toString oversight.dispatched) ++ js ", decision="
        ++ oversight.decision.getD (js "none") ++ js ", verdict="
        ++ oversight.verdict.getD (js "none")
        ++ js ") — no action performed, paused for a human" }
  let denied := fun correlation : CorrelationState => LoopPhase.persisting call.event
    { correlation with terminal := some terminal }
  if !worker.halfOpenProbe then goesOn worker state queue (denied call.correlation)
  else
    match withLoopStateLock env.fault state (some none)
        (finishHalfOpenProbe env.now false key worker.probeOwnerToken worker.probeOwnerPid) with
    | (state, some correlation) =>
      goesOn worker state queue (denied (correlation.getD call.correlation))
    | (state, none) =>
      -- the probe is given up by its owner before the terminal is persisted
      goesOn worker state queue (.refusing call.event call.correlation (some terminal))

/-- The reservation a call makes. -/
def LoopCall.reservation (call : LoopCall) : InFlightClaim where
  dedupToken := call.event.dedupToken
  workflowInstanceId := id
  ownerPid := worker.ownerPid
  actionClass := call.actionClass
  head := some call.head
  performed := false
  attempts := 0
  claimedAt := env.isoNow
  actionStartedAt := none

/-- Where the call goes on behind the final admission. -/
def admittedPhase (call : LoopCall) : Option FinalAdmission → LoopPhase
  | none =>
    .refusing call.event call.correlation (some
      { state := .pausedForHuman
        reason := js "final action admission failed — paused for a human" })
  | some (.cancelled _) => .abandoning call.event false
  | some .retryable => .abandoning call.event true
  | some .unavailable =>
    .refusing call.event call.correlation (some
      { state := .pausedForHuman
        reason := js "cancellation admission state unavailable — paused for a human" })
  | some (.claimLost correlation) =>
    .refusing call.event correlation (some
      { state := .pausedForHuman
        reason := js "durable claim was lost before action — paused for a human" })
  | some (.admitted correlation) =>
    if ownsExactReservation correlation.inFlight call.event.dedupToken id worker.ownerPid then
      .reserved { call with correlation := correlation }
    else
      .refusing call.event correlation (some
        { state := .pausedForHuman
          reason := js "in-flight admission was not persisted — paused for a human" })

def approvedStep (call : LoopCall) : LoopEffect :=
  let event := call.event
  let answer := withLoopStateLock env.fault state (some .unavailable)
    (admitFinally host.budget env.isProcessAlive env.localCancellation
      (hasExactDurableClaim id worker queue event.dedupToken) (eventKey worker.sessionID event)
      worker.sessionID event.repoFullName event.prNumber (call.reservation env id worker)
      call.correlation)
  goesOn worker answer.1 queue (admittedPhase id worker call answer.2)

def reservedStep (call : LoopCall) : LoopEffect :=
  goesOn worker state queue
    (if env.localCancellation.isSome then .clearing call none none else .marking call)

/-- Where the call goes on behind `markExactReservationActionStarted`. -/
def markedPhase (call : LoopCall) : Option ActionStartAdmission → LoopPhase
  | none =>
    -- a marker that was written is removed before the failure is reported
    .clearing call (some env.now) (some
      { state := .pausedForHuman
        reason := js "action-start transition failed — paused for a human" })
  | some .unavailable =>
    .refusing call.event call.correlation (some
      { state := .pausedForHuman
        reason := js "action-start state unavailable — paused for a human" })
  | some .missingCorrelation => .abandoning call.event true
  | some (.blocked correlation) =>
    .refusing call.event correlation (some
      { state := .pausedForHuman
        reason := js "exact action-start admission failed — paused for a human" })
  | some (.cancelled _ _) => .abandoning call.event false
  | some (.started correlation actionStartedAt) =>
    .started { call with correlation := correlation } actionStartedAt

/-- The mark that the action has started, logged when it is written. -/
def markingStep (call : LoopCall) : LoopEffect :=
  let event := call.event
  let mark := markExactReservationActionStarted env.now env.localCancellation
    env.cancellationDuringWrite (hasExactDurableClaim id worker queue event.dedupToken)
    (eventKey worker.sessionID event) worker.sessionID event.dedupToken id worker.ownerPid
  let answer := withLoopStateLock env.fault state (some .unavailable) mark
  { goesOn worker answer.1 queue (markedPhase env call answer.2) with
    log :=
      if (env.fault = .none ∨ env.fault = .thrown)
          ∧ (mark state).2.any ActionStartAdmission.marked then
        [.started worker.sessionID id]
      else [] }

def startedStep (call : LoopCall) (actionStartedAt : Int) : LoopEffect :=
  goesOn worker state queue
    (if env.localCancellation.isSome then .clearing call (some actionStartedAt) none
    else .performing call 0)

def performingStep (call : LoopCall) (attempt : Nat) : LoopEffect :=
  let outcome := env.performer
  let phase : LoopPhase :=
    if outcome.performed || outcome.permanent || !outcome.transient
        || decide (MAX_PERFORM_ATTEMPTS ≤ attempt + 1) then
      .acted call outcome
    else .performing call (attempt + 1)
  { goesOn worker state queue phase with
    log := if outcome.performed then [.performed worker.sessionID call.action id] else [] }

def actedStep (call : LoopCall) (outcome : PerformOutcome) : LoopEffect :=
  match withLoopStateLock env.fault state none
      (settleAction env.now worker.probe outcome (call.action.digest host.sha256)
        (eventKey worker.sessionID call.event) worker.sessionID id worker.ownerPid
        call.correlation) with
  | (state, some true) => goesOn worker.withoutProbe state queue .returned
  | (state, _) => goesOn worker state queue (.abandoning call.event false)

/-- The reservation is given back before the action. -/
def clearingStep (call : LoopCall) (actionStartedAt : Option Int)
    (refusal : Option LoopTerminal) : LoopEffect :=
  let next : LoopPhase :=
    match refusal with
    | none => .abandoning call.event false
    | some terminal => .refusing call.event call.correlation (some terminal)
  -- a failing cleanup is ignored
  goesOn worker
    (withLoopStateLock env.fault state (some false)
      (clearExactPreStartReservation (eventKey worker.sessionID call.event) call.event.dedupToken
        id worker.ownerPid actionStartedAt)).1 queue next

/-- `releaseAdmittedProbe`: the document, and the correlation the call goes on with. -/
def releaseAdmittedProbe (event : PrFeedbackMonitorEvent) (correlation : CorrelationState) :
    LoopState × CorrelationState :=
  if !worker.halfOpenProbe then (state, correlation)
  else
    match withLoopStateLock env.fault state (some none)
        (releaseHalfOpenProbe (eventKey worker.sessionID event) worker.probeOwnerToken
          worker.probeOwnerPid) with
    | (state, released) => (state, (released.getD none).getD correlation)

def refusingStep (event : PrFeedbackMonitorEvent) (correlation : CorrelationState)
    (terminal : Option LoopTerminal) : LoopEffect :=
  let released := releaseAdmittedProbe env worker state event correlation
  goesOn worker.withoutProbe released.1 queue (.persisting event
    { released.2 with terminal := terminal.or released.2.terminal })

def persistingStep (event : PrFeedbackMonitorEvent) (correlation : CorrelationState) :
    LoopEffect :=
  goesOn worker
    (withLoopStateLock env.fault state none
      (persistCorrelation (eventKey worker.sessionID event) correlation)).1 queue .returned

def abandoningStep (event : PrFeedbackMonitorEvent) (unclaim : Bool) : LoopEffect :=
  goesOn worker.withoutProbe
    (releaseAdmittedProbe env worker state event
      (newCorrelation worker.sessionID event.repoFullName event.prNumber)).1 queue
    (if unclaim then .unclaiming event else .returned)

def unclaimingStep (event : PrFeedbackMonitorEvent) : LoopEffect :=
  let next := (releaseClaim host.queue event.dedupToken id worker.ownerPid queue).or queue
  goesOn worker state (if env.fault = .lost ∨ env.fault = .corrupt then queue else next) .returned

end Step

/-- One step of a call; a call that returned takes none. -/
def callStep (host : LoopHost) (env : LoopEnv) (id : JsString) (worker : LoopWorker)
    (state : LoopState) (queue : Option PrFeedbackQueueRecord) : Option LoopEffect :=
  match worker.phase with
  | .claiming pending => some (claimingStep host env id worker state queue pending)
  | .reading event => some (readingStep env worker state queue event)
  | .checking event snapshot correlation =>
    some (checkingStep env worker state queue event snapshot correlation)
  | .evaluating event snapshot correlation =>
    some (evaluatingStep host env worker state queue event snapshot correlation)
  | .admitting call => some (admittingStep env worker state queue call)
  | .barrier call => some (barrierStep env worker state queue call)
  | .sequencing call => some (sequencingStep env worker state queue call)
  | .overseeing call => some (overseeingStep env worker state queue call)
  | .denying call oversight => some (denyingStep env worker state queue call oversight)
  | .approved call => some (approvedStep host env id worker state queue call)
  | .reserved call => some (reservedStep env worker state queue call)
  | .marking call => some (markingStep env id worker state queue call)
  | .started call actionStartedAt => some (startedStep env worker state queue call actionStartedAt)
  | .performing call attempt => some (performingStep env id worker state queue call attempt)
  | .acted call outcome => some (actedStep host env id worker state queue call outcome)
  | .clearing call actionStartedAt refusal =>
    some (clearingStep env id worker state queue call actionStartedAt refusal)
  | .refusing event correlation terminal =>
    some (refusingStep env worker state queue event correlation terminal)
  | .persisting event correlation => some (persistingStep env worker state queue event correlation)
  | .abandoning event unclaim => some (abandoningStep env worker state queue event unclaim)
  | .unclaiming event => some (unclaimingStep host env id worker state queue event)
  | .returned => none

/-! ## The world -/

inductive LoopLabel where
  /-- `claimAndProcessPrFeedbackEvent` finds a pending event; it draws `id`. -/
  | call (id sessionID : JsString) (ownerPid : Nat)
  | step (id : JsString) (env : LoopEnv)
  /-- A process dies with all its calls. -/
  | crash (ownerPid : Nat)
  /-- The durable part of `cancelPrFeedbackLoop`. -/
  | cancel (sessionID reason : JsString) (env : LoopEnv)
  /-- Any other mutation of a queue: the monitor enqueues, a stop clears. -/
  | queue (sessionID : JsString) (origin : Nat) (mutation : QueueMutation)

/-- The first event that nobody claimed. -/
def pendingEvent (queue : Option PrFeedbackQueueRecord) : Option PrFeedbackMonitorEvent :=
  (queue.map PrFeedbackQueueRecord.events).bind fun events =>
    events.find? fun event => event.claimedWorkflowInstanceId.isNone

namespace LoopWorld

/-- The world behind one step of a call. -/
def after (s : LoopWorld) (id : JsString) (effect : LoopEffect) : LoopWorld where
  state := effect.state
  queues := Function.update s.queues effect.worker.sessionID effect.queue
  workers := Function.update s.workers id (some effect.worker)
  log := s.log ++ effect.log

/-- A process is known to be gone with every call it made. -/
def crash (s : LoopWorld) (ownerPid : Nat) : LoopWorld :=
  { s with
    workers := fun id => (s.workers id).map fun worker =>
      if worker.ownerPid = ownerPid then { worker with crashed := true } else worker }

/-- The durable stop. -/
def cancel (s : LoopWorld) (sessionID reason : JsString) (env : LoopEnv) : LoopWorld :=
  let answer := withLoopStateLock env.fault s.state none
    (cancelSession env.isProcessAlive sessionID reason)
  { s with
    state := answer.1
    log := s.log ++
      if env.fault = .none ∨ env.fault = .thrown then [.cancelled sessionID] else [] }

end LoopWorld

/-- A call that has just begun. -/
def newWorker (sessionID : JsString) (ownerPid : Nat) (pending : PrFeedbackMonitorEvent) :
    LoopWorker where
  sessionID := sessionID
  ownerPid := ownerPid
  crashed := false
  halfOpenProbe := false
  probeOwnerToken := none
  probeOwnerPid := none
  phase := .claiming pending

/-- One step of the world, as a function of its label. -/
def loopStep (host : LoopHost) (s : LoopWorld) : LoopLabel → Option LoopWorld
  | .call id sessionID ownerPid =>
    if (s.workers id).isSome then none
    else
      (pendingEvent (s.queues sessionID)).map fun pending =>
        { s with
          workers := Function.update s.workers id (some (newWorker sessionID ownerPid pending)) }
  | .step id env =>
    match s.workers id with
    | none => none
    | some worker =>
      if worker.crashed then none
      else (callStep host env id worker s.state (s.queues worker.sessionID)).map (s.after id)
  | .crash ownerPid => some (s.crash ownerPid)
  | .cancel sessionID reason env => some (s.cancel sessionID reason env)
  | .queue sessionID origin mutation =>
    some { s with
      queues := Function.update s.queues sessionID
        ((mutation.next host.queue sessionID origin (s.queues sessionID)).or
          (s.queues sessionID)) }

/-- `process.kill(pid, 0)` fails for no process that still runs. -/
def LoopWorld.LivenessSound (s : LoopWorld) (env : LoopEnv) : Prop :=
  ∀ id worker, s.workers id = some worker → worker.crashed = false →
    env.isProcessAlive worker.ownerPid = true

/-- `randomUUID` gives what no probe has. -/
def LoopWorld.FreshToken (s : LoopWorld) (env : LoopEnv) : Prop :=
  ∀ id worker, s.workers id = some worker → worker.probeOwnerToken ≠ some env.randomUUID

/-- What the runtime promises of its answers. -/
def LoopWorld.Admissible (s : LoopWorld) : LoopLabel → Prop
  | .call id _ ownerPid => trim id = id ∧ id ≠ [] ∧ 0 < ownerPid
  | .step _ env => s.LivenessSound env ∧ s.FreshToken env
  | .cancel _ _ env => s.LivenessSound env
  | _ => True

/-- One step of the world. -/
def LoopStep (host : LoopHost) (s : LoopWorld) (a : LoopLabel) (t : LoopWorld) : Prop :=
  loopStep host s a = some t ∧ s.Admissible a

end OpencodeSwarm
