/-
  OpencodeSwarm.Plan.Manager

  `savePlan` and the startup check of `loadPlan` (`src/plan/manager.ts`), over a
  project whose ledger has no malformed line and whose plan.json is absent or
  valid.

  A save is the list of its durable writes, in the order of the source: a root
  for a new or foreign ledger, the removal and status events of the difference
  to plan.json, the snapshots, and the plan.json rename.  Each part is computed
  from the files the parts before it left.  A crash is a prefix of that list.
-/
import OpencodeSwarm.Plan.TaskView
import OpencodeSwarm.Plan.Approval

namespace OpencodeSwarm

open Js

/-! ## Files -/

/-- The ledger and plan.json.  `ledger` lists the events in seq order, as
    `readLedgerEvents` returns them; it is `none` when there is no ledger. -/
structure ProjectFiles where
  ledger : Option (List LedgerEvent)
  planJson : Option Plan

def ProjectFiles.events (files : ProjectFiles) : List LedgerEvent := files.ledger.getD []

/-- One durable write of a save. -/
inductive DurableWrite where
  /-- A ledger that consists of this root. -/
  | root (event : LedgerEvent)
  | append (event : LedgerEvent)
  /-- The rename that publishes plan.json. -/
  | rename (plan : Plan)

def ProjectFiles.write (files : ProjectFiles) : DurableWrite → ProjectFiles
  | .root event => { files with ledger := some [event] }
  | .append event => { files with ledger := some (files.events ++ [event]) }
  | .rename plan => { files with planJson := some plan }

def ProjectFiles.writeAll (files : ProjectFiles) (writes : List DurableWrite) : ProjectFiles :=
  writes.foldl ProjectFiles.write files

/-- `getLatestLedgerSeq`. -/
def latestSeq (events : List LedgerEvent) : Nat :=
  events.foldl (fun maximum event => max maximum event.seq) 0

/-- `replayFromLedger`: an empty ledger replays to nothing. -/
def replayFromLedger (files : ProjectFiles) : Except ReplayError (Option Plan) :=
  if files.events = [] then .ok none else reconstructPlanFromEvents files.planJson files.events

/-! ## Statuses -/

def derivePhaseStatus (tasks : List Task) : PhaseStatus :=
  if !tasks.isEmpty && tasks.all (fun task => task.status = .completed) then .complete
  else if tasks.any (fun task => task.status = .inProgress) then .inProgress
  else if tasks.any (fun task => task.status = .blocked) then .blocked
  else .pending

/-- `derivePhaseStatusesInPlace`. -/
def derivePhaseStatuses (plan : Plan) : Plan :=
  { plan with phases := plan.phases.map fun phase =>
      { phase with status := derivePhaseStatus phase.tasks } }

/-- Rewrite every task of the plan. -/
def Plan.mapTasks (f : Task → Task) (plan : Plan) : Plan :=
  { plan with phases := plan.phases.map fun phase => { phase with tasks := phase.tasks.map f } }

/-- The guard behind `preserveCompletedStatuses`: what plan.json has completed
    stays completed. -/
def preserveCompletedStatuses (current plan : Plan) : Plan :=
  plan.mapTasks fun task =>
    if current.tasks.any fun old => old.id == task.id && old.status == .completed then
      { task with status := .completed }
    else task

def statusRank : TaskStatus → Nat
  | .closed => 5
  | .completed => 4
  | .blocked => 3
  | .inProgress => 2
  | .pending => 1

/-- The value a JavaScript `Map` keyed by task id holds after the tasks were set
    in order: that of the last task with this id. -/
def lastTask (plan : Plan) (id : JsString) : Option Task :=
  plan.tasks.reverse.find? fun task => task.id == id

def collectLedgerStatusTaskIds (events : List LedgerEvent) : List JsString :=
  events.filterMap fun event =>
    if event.eventType = .taskStatusChanged then event.taskId else none

/-- The status the merge gives a task: the replayed one, when the ledger records
    a status for the id and the replayed one is strictly more terminal. -/
def mergedStatus (replayed : Plan) (ledgerStatusTaskIds : List JsString) (task : Task) :
    TaskStatus :=
  match (if task.id ∈ ledgerStatusTaskIds then lastTask replayed task.id else none) with
  | some old => if statusRank old.status > statusRank task.status then old.status else task.status
  | none => task.status

def mergeStatusesTakingPrecedence (validated replayed : Plan)
    (ledgerStatusTaskIds : List JsString) : Plan :=
  derivePhaseStatuses (validated.mapTasks fun task =>
    { task with status := mergedStatus replayed ledgerStatusTaskIds task })

/-! ## Options and errors -/

structure AcknowledgedRemovals where
  ids : List JsString
  reason : JsString
  source : JsString

/-- The options of `savePlan`.  `preCommitCheck` says that a check was given; a
    save in which it throws is a crashed one. -/
structure SaveOptions where
  preserveCompletedStatuses : Bool := true
  acknowledgedRemovals : Option AcknowledgedRemovals := none
  staleProjectionReconcile : Option ExpectedTail := none
  preCommitCheck : Bool := false

/-- What clock, random source and file system contribute to a save. -/
structure SaveClock where
  /-- The timestamp of the event with this seq. -/
  timestamp : Nat → JsString
  planEpoch : JsString
  /-- Every attempt of `takeSnapshotWithRetry` fails. -/
  intervalSnapshotFails : Bool := false

inductive SavePlanError where
  /-- `PlanSchema.parse` throws. -/
  | invalidPlan
  /-- `PlanTaskRemovalNotAcknowledgedError`. -/
  | removalNotAcknowledged (ids : List JsString)
  /-- `PLAN_ACKNOWLEDGED_REMOVAL_INVALID: acknowledged_removals.reason …`. -/
  | removalReasonBlank
  /-- `PLAN_ACKNOWLEDGED_REMOVAL_INVALID: acknowledged_removals.source …`. -/
  | removalSourceBlank
  /-- `… contains "id" but that task is not missing from the plan.` -/
  | removalNotMissing (id : JsString)
  /-- `RECONCILE_LEDGER_PROJECTION_MISMATCH`. -/
  | projectionMismatch
  /-- `RECONCILE_LEDGER_PROJECTION_STALE`. -/
  | projectionStale
  | replay (error : ReplayError)

section SavePlan

variable (sha256 : JsString → JsString) (clock : SaveClock)

/-! ## Appending -/

def computeCurrentPlanHash (files : ProjectFiles) : JsString :=
  (files.planJson.map (computePlanLedgerHash sha256)).getD []

structure LedgerEventInput where
  planId : JsString
  eventType : LedgerEventType
  taskId : Option JsString := none
  phaseId : Option Nat := none
  fromStatus : Option TaskStatus := none
  toStatus : Option TaskStatus := none
  source : JsString
  payload : Option LedgerEventPayload := none

/-- The event `appendLedgerEvent` writes.  Its compare-and-swap on the hash of
    plan.json succeeds: the plan lock is held, and plan.json is renamed last. -/
def appendedEvent (files : ProjectFiles) (input : LedgerEventInput) (planHashAfter : JsString) :
    LedgerEvent where
  seq := latestSeq files.events + 1
  timestamp := clock.timestamp (latestSeq files.events + 1)
  planId := input.planId
  eventType := input.eventType
  taskId := input.taskId
  phaseId := input.phaseId
  fromStatus := input.fromStatus
  toStatus := input.toStatus
  source := input.source
  planHashBefore := computeCurrentPlanHash sha256 files
  planHashAfter := planHashAfter
  payload := input.payload

/-- The events of a list of inputs, appended one after another. -/
def appendedEvents (files : ProjectFiles) (planHashAfter : JsString) :
    List LedgerEventInput → List LedgerEvent
  | [] => []
  | input :: inputs =>
    let event := appendedEvent sha256 clock files input planHashAfter
    event :: appendedEvents (files.write (.append event)) planHashAfter inputs

/-- `takeSnapshotEvent`. -/
def snapshotInput (plan : Plan) (source : JsString) : LedgerEventInput where
  planId := derivePlanId plan
  eventType := .snapshot
  source := source
  payload := some (snapshotPayload sha256 plan source none)

/-- The snapshot event of a plan, under the hash of that plan. -/
def snapshotEvent (files : ProjectFiles) (plan : Plan) (source : JsString) : LedgerEvent :=
  appendedEvent sha256 clock files (snapshotInput sha256 plan source)
    (computePlanLedgerHash sha256 plan)

/-! ## The parts of a save -/

/-- The plan after the status guard, the phase statuses and the cursor. -/
def validatedPlan (files : ProjectFiles) (plan : Plan) (options : SaveOptions) : Plan :=
  let preserved :=
    match options.preserveCompletedStatuses, files.planJson with
    | true, some current => preserveCompletedStatuses current plan
    | _, _ => plan
  normalizeCurrentPhase (derivePhaseStatuses preserved)

/-- The root `initLedger` and `replacePlanLedgerWithRoot` write. -/
def planCreatedRoot (plan : Plan) (source : JsString) : LedgerEvent where
  seq := 1
  timestamp := clock.timestamp 1
  planId := derivePlanId plan
  eventType := .planCreated
  source := source
  planHashBefore := []
  planHashAfter := computePlanLedgerHash sha256 plan
  payload := some
    { plan := some plan
      payloadHash := some (computePlanLedgerHash sha256 plan)
      planEpoch := some clock.planEpoch }

/-- A missing ledger is initialized, one of another identity replaced. -/
def rootWrites (files : ProjectFiles) (validated : Plan) : List DurableWrite :=
  match files.ledger with
  | none => [.root (planCreatedRoot sha256 clock validated (js "initLedger"))]
  | some events =>
    if events.head?.any fun first => first.planId != derivePlanId validated then
      [.root (planCreatedRoot sha256 clock validated (js "savePlan_identity_migration"))]
    else []

/-- The recovery snapshot of `staleProjectionReconcile`: plan.json unchanged, and
    the ledger at the tail the caller saw.  It continues the hash chain of the
    tail, not that of plan.json. -/
def reconcileWrites (files : ProjectFiles) (plan validated : Plan) (options : SaveOptions) :
    Except SavePlanError (List DurableWrite) :=
  match options.staleProjectionReconcile with
  | none => .ok []
  | some expected =>
    if files.planJson.map derivePhaseStatuses ≠ some (derivePhaseStatuses plan) then
      .error .projectionMismatch
    else
      match files.events.getLast? with
      | none => .error .projectionStale
      | some tail =>
        if tail.seq ≠ expected.seq ∨ tail.planHashAfter ≠ expected.ledgerHash
            ∨ files.events.head?.map LedgerEvent.planId ≠ some (derivePlanId validated)
            ∨ latestSeq files.events ≠ expected.seq then
          .error .projectionStale
        else
          let snapshot := snapshotEvent sha256 clock files validated
            (js "save_plan_stale_projection_reconcile")
          .ok [.append { snapshot with planHashBefore := tail.planHashAfter }]

/-- The ids plan.json has and the new plan lacks, in `Map` order. -/
def missingTaskIds (current validated : Plan) : List JsString :=
  (current.tasks.map Task.id).eraseDups.filter fun id =>
    !validated.tasks.any fun task => task.id == id

/-- The `task_removed` event of an id. -/
def removalInput (current validated : Plan) (ack : AcknowledgedRemovals) (id : JsString) :
    LedgerEventInput where
  planId := derivePlanId validated
  eventType := .taskRemoved
  taskId := some id
  phaseId := (lastTask current id).map Task.phase
  fromStatus := (lastTask current id).map Task.status
  source := ack.source
  payload := some { rest := ack.reason ++ ack.source }

/-- The removal guard and its events. -/
def removalInputs (current validated : Plan) (options : SaveOptions) :
    Except SavePlanError (List LedgerEventInput) :=
  let missing := missingTaskIds current validated
  if missing = [] then .ok []
  else
    match options.acknowledgedRemovals with
    | none => .error (.removalNotAcknowledged missing)
    | some ack =>
      if isBlank ack.reason then .error .removalReasonBlank
      else if isBlank ack.source then .error .removalSourceBlank
      else
        let unacked := missing.filter fun id => id ∉ ack.ids
        if unacked ≠ [] then .error (.removalNotAcknowledged unacked)
        else
          match ack.ids.find? fun id => id ∉ missing with
          | some id => .error (.removalNotMissing id)
          | none => .ok (missing.map (removalInput current validated ack))

/-- The `task_status_changed` event of a task whose status is not the one
    plan.json has for its id. -/
def statusInput (current validated : Plan) (phase : Phase) (task : Task) :
    Option LedgerEventInput :=
  match lastTask current task.id with
  | none => none
  | some old =>
    if old.status ≠ task.status then
      some
        { planId := derivePlanId validated
          eventType := .taskStatusChanged
          taskId := some task.id
          phaseId := some phase.id
          fromStatus := some old.status
          toStatus := some task.status
          source := js "savePlan" }
    else none

def statusInputs (current validated : Plan) : List LedgerEventInput :=
  validated.phases.flatMap fun phase => phase.tasks.filterMap (statusInput current validated phase)

/-- The events of the difference to plan.json; none without a plan.json. -/
def diffInputs (files : ProjectFiles) (validated : Plan) (options : SaveOptions) :
    Except SavePlanError (List LedgerEventInput) :=
  match files.planJson with
  | none => .ok []
  | some current =>
    (removalInputs current validated options).map (· ++ statusInputs current validated)

/-- `projectionCandidate`, from the ledger with the events of this save. -/
def projectionCandidate (files : ProjectFiles) (validated : Plan) (replayed : Option Plan) :
    Plan :=
  match replayed with
  | some replayed =>
    mergeStatusesTakingPrecedence validated replayed (collectLedgerStatusTaskIds files.events)
  | none => validated

/-- The replay differs from the projection in what the ledger hash covers. -/
def structuralSnapshotDue (replayed : Option Plan) (candidate : Plan) : Bool :=
  replayed.any fun replayed =>
    computePlanLedgerHash sha256 replayed ≠ computePlanLedgerHash sha256 candidate

def structuralSnapshot (files : ProjectFiles) (replayed : Option Plan) (candidate : Plan) :
    List DurableWrite :=
  if structuralSnapshotDue sha256 replayed candidate then
    [.append (snapshotEvent sha256 clock files candidate (js "savePlan_structural_projection"))]
  else []

/-- `SNAPSHOT_INTERVAL`. -/
def snapshotInterval : Nat := 50

/-- A periodic snapshot is due and gets written. -/
def intervalSnapshotDue (files : ProjectFiles) (options : SaveOptions) : Bool :=
  !options.preCommitCheck && 0 < latestSeq files.events
    && latestSeq files.events % snapshotInterval == 0 && !clock.intervalSnapshotFails

/-- `takeSnapshotWithRetry` keeps its source for telemetry. -/
def intervalSnapshot (files : ProjectFiles) (candidate : Plan) (options : SaveOptions) :
    List DurableWrite :=
  if intervalSnapshotDue clock files options then
    [.append (snapshotEvent sha256 clock files candidate (js "takeSnapshotEvent"))]
  else []

/-- The writes that end a save, once its events are in the ledger. -/
def projectionWrites (files : ProjectFiles) (validated : Plan) (options : SaveOptions)
    (replayed : Option Plan) : List DurableWrite :=
  let candidate := projectionCandidate files validated replayed
  let structural := structuralSnapshot sha256 clock files replayed candidate
  structural
    ++ intervalSnapshot sha256 clock (files.writeAll structural) candidate options
    ++ [.rename candidate]

/-- The ledger part of a save: root, recovery snapshot, and the events of the
    difference to plan.json under the hash of the incoming plan. -/
def ledgerWrites (files : ProjectFiles) (plan : Plan) (options : SaveOptions) :
    Except SavePlanError (List DurableWrite) :=
  let validated := validatedPlan files plan options
  let roots := rootWrites sha256 clock files validated
  let rooted := files.writeAll roots
  match reconcileWrites sha256 clock rooted plan validated options with
  | .error err => .error err
  | .ok reconciles =>
    let reconciled := rooted.writeAll reconciles
    match diffInputs reconciled validated options with
    | .error err => .error err
    | .ok inputs =>
      let events := appendedEvents sha256 clock reconciled
        (computePlanLedgerHash sha256 validated) inputs
      .ok (roots ++ reconciles ++ events.map DurableWrite.append)

/-- `savePlan` under the plan lock, as its durable writes. -/
def savePlanWrites (files : ProjectFiles) (plan : Plan) (options : SaveOptions) :
    Except SavePlanError (List DurableWrite) :=
  if !plan.wellFormed then .error .invalidPlan
  else
    match ledgerWrites sha256 clock files plan options with
    | .error err => .error err
    | .ok writes =>
      let appended := files.writeAll writes
      match replayFromLedger appended with
      | .error err => .error (.replay err)
      | .ok replayed =>
        .ok (writes ++ projectionWrites sha256 clock appended
          (validatedPlan files plan options) options replayed)

/-- `savePlan` under the plan lock. -/
def savePlan (files : ProjectFiles) (plan : Plan) (options : SaveOptions) :
    Except SavePlanError ProjectFiles :=
  (savePlanWrites sha256 clock files plan options).map files.writeAll

/-! ## Loading -/

/-- `getLatestLedgerHash`. -/
def latestLedgerHash (events : List LedgerEvent) : JsString :=
  (events.getLast?.map LedgerEvent.planHashAfter).getD []

/-- The audit event of `rebuildPlan`. -/
def rebuiltInput (plan : Plan) : LedgerEventInput where
  planId := derivePlanId plan
  eventType := .planRebuilt
  source := js "rebuildPlan"

/-- `rebuildPlan`: publish the plan, then record that it was rebuilt. -/
def rebuildPlan (files : ProjectFiles) (plan : Plan) : ProjectFiles :=
  let published := files.write (.rename plan)
  published.write (.append (appendedEvent sha256 clock published (rebuiltInput plan)
    (computePlanLedgerHash sha256 plan)))

/-- The snapshot that heals the ledger after a fallback to an approved plan. -/
def healApproved (files : ProjectFiles) (plan : Plan) : ProjectFiles :=
  let rebuilt := rebuildPlan sha256 clock files plan
  rebuilt.write (.append (appendedEvent sha256 clock rebuilt
    (snapshotInput sha256 plan (js "recovery_from_approved_snapshot"))
    (computeCurrentPlanHash sha256 rebuilt)))

/-- `loadPlan` once plan.json parsed as `validated`.  At startup a plan.json that
    the ledger's last token does not name is rebuilt from the ledger, unless the
    ledger has another identity; when replay throws, the last approved snapshot
    stands in. -/
def loadValidPlan (startup : Bool) (files : ProjectFiles) (validated : Plan) :
    ProjectFiles × Plan :=
  let ledgerHash := latestLedgerHash files.events
  if !startup || files.ledger.isNone || ledgerHash.isEmpty
      || computePlanLedgerHash sha256 validated == ledgerHash then
    (files, validated)
  else if files.events.head?.any fun first => first.planId != derivePlanId validated then
    (files, validated)
  else
    match replayFromLedger files with
    | .ok (some rebuilt) => (rebuildPlan sha256 clock files rebuilt, rebuilt)
    | .ok none => (files, validated)
    | .error _ =>
      match findLastApprovedSnapshot files.events (some (derivePlanId validated)) with
      | some approved => (healApproved sha256 clock files approved.plan, approved.plan)
      | none => (files, validated)

end SavePlan

end OpencodeSwarm
