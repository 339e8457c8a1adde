/-
  OpencodeSwarm.Turbo.LanePlanner

  The lane planner of Lean Turbo (`src/turbo/lean/planner.ts`): rounds of ready
  tasks, each task placed in a lane, serialized or degraded, and a sweep over the
  tasks that never became ready.
-/
import OpencodeSwarm.Turbo.PartitionOrder

namespace OpencodeSwarm

open Js

/-! ## Settings and results -/

/-- `conflict_policy` of the Lean Turbo configuration. -/
inductive ConflictPolicy where
  | serialize
  | degrade
  deriving DecidableEq, Repr

/-- `LeanTurboConfig`, as far as the lane planner reads it, within the bounds of
    its schema. -/
structure LanePlannerConfig extends LeanTurboConfig where
  maxParallelCoders : Nat
  conflictPolicy : ConflictPolicy
  degradeOnRisk : Bool
  minParallelCoders : 1 ≤ maxParallelCoders
  limitParallelCoders : maxParallelCoders ≤ 6

/-- `LeanTurboLane['status']`. -/
inductive LaneStatus where
  | pending
  | running
  | completed
  | failed
  | blocked
  deriving DecidableEq, Repr

/-- `LeanTurboLane`, as the planner makes it. -/
structure LeanTurboLane where
  laneId : JsString
  taskIds : List JsString
  files : List JsString
  status : LaneStatus
  deriving DecidableEq

/-- `LeanTurboDegradedTask['requiredMode']`. -/
inductive RequiredMode where
  | standard
  | balanced
  deriving DecidableEq, Repr

structure LeanTurboDegradedTask where
  taskId : JsString
  reason : JsString
  files : List JsString
  requiredMode : RequiredMode
  deriving DecidableEq

structure LeanTurboCounters where
  lanesPlanned : Nat
  lanesStarted : Nat
  lanesCompleted : Nat
  lanesFailed : Nat
  tasksSerialized : Nat
  tasksDegraded : Nat
  deriving DecidableEq

structure LeanTurboLanePlan where
  phase : Nat
  planId : JsString
  lanes : List LeanTurboLane
  degradedTasks : List LeanTurboDegradedTask
  serializedTasks : List JsString
  degradationSummary : Option JsString
  counters : LeanTurboCounters
  crossLaneDependencies : OrderedMap JsString (List JsString)

/-! ## Placing a task -/

/-- The variables of `planLeanTurboLanes`.  Sets are lists, and lane `-1` stands
    for a serialized task. -/
structure LanePlanState where
  lanes : List LeanTurboLane
  serializedTasks : List JsString
  degradedTasks : List LeanTurboDegradedTask
  claimedFiles : List JsString
  assignedTasks : List JsString
  taskToLane : OrderedMap JsString Int
  crossLaneDependencies : OrderedMap JsString (List JsString)

/-- The state before the first round: tasks in a cycle are serialized. -/
def lanePlanStart (tasksInCycle : List JsString) : LanePlanState :=
  { lanes := []
    serializedTasks := tasksInCycle
    degradedTasks := []
    claimedFiles := []
    assignedTasks := tasksInCycle
    taskToLane := tasksInCycle.foldl (fun taskToLane id => taskToLane.set id (-1)) []
    crossLaneDependencies := [] }

/-- `degradedTasks.push(…)` with the task assigned. -/
def LanePlanState.degrade (state : LanePlanState) (classified : ClassifiedTask)
    (reason : JsString) : LanePlanState :=
  { state with
    degradedTasks := state.degradedTasks
      ++ [⟨classified.task.id, reason, classified.files, .balanced⟩]
    assignedTasks := state.assignedTasks ++ [classified.task.id] }

/-- `serializedTasks.push(…)` with the task assigned. -/
def LanePlanState.serialize (state : LanePlanState) (classified : ClassifiedTask) :
    LanePlanState :=
  { state with
    serializedTasks := state.serializedTasks ++ [classified.task.id]
    assignedTasks := state.assignedTasks ++ [classified.task.id]
    taskToLane := state.taskToLane.set classified.task.id (-1) }

/-- A task with a conflict, under the policy. -/
def LanePlanState.resolveConflict (state : LanePlanState) (policy : ConflictPolicy)
    (classified : ClassifiedTask) : LanePlanState :=
  match policy with
  | .degrade => state.degrade classified (js "file conflict with parallel task")
  | .serialize => state.serialize classified

/-- `claimedFiles.add(file)`. -/
def addClaim (claimedFiles : List JsString) (file : JsString) : List JsString :=
  if file ∈ claimedFiles then claimedFiles else claimedFiles ++ [file]

/-- The first lane without a conflict, else a new lane. -/
def candidateLane (maxLanes : Nat) (lanes : List LeanTurboLane) (files : List JsString) :
    Option Nat :=
  match lanes.findIdx? fun lane =>
    !lane.files.any fun laneFile => files.any fun taskFile => pathsConflict laneFile taskFile with
  | some index => some index
  | none => if lanes.length < maxLanes then some lanes.length else none

def depsInOtherLanes (taskMap : OrderedMap JsString ClassifiedTask)
    (taskToLane : OrderedMap JsString Int) (candidateLaneIndex : Nat) (depends : List JsString) :
    List JsString :=
  depends.filter fun dep =>
    (taskMap.get? dep).isSome &&
      match taskToLane.get? dep with
      | none => false
      | some depLane => depLane ≠ -1 ∧ depLane ≠ (candidateLaneIndex : Int)

/-- A task put into the candidate lane. -/
def LanePlanState.place (state : LanePlanState) (candidateLaneIndex : Nat)
    (classified : ClassifiedTask) : LanePlanState :=
  { state with
    lanes :=
      if candidateLaneIndex < state.lanes.length then
        state.lanes.modify candidateLaneIndex fun lane =>
          { lane with
            taskIds := lane.taskIds ++ [classified.task.id]
            files := lane.files ++ classified.files }
      else
        state.lanes ++ [{
          laneId := js "lane-" ++ js (toString (state.lanes.length + 1))
          taskIds := [classified.task.id]
          files := classified.files
          status := .pending }]
    assignedTasks := state.assignedTasks ++ [classified.task.id]
    taskToLane := state.taskToLane.set classified.task.id
      (if candidateLaneIndex < state.lanes.length then (candidateLaneIndex : Int)
        else (state.lanes.length : Int))
    claimedFiles := classified.files.foldl addClaim state.claimedFiles }

/-- A normal task without a conflict. -/
def LanePlanState.assignLane (state : LanePlanState) (maxLanes : Nat)
    (taskMap : OrderedMap JsString ClassifiedTask) (classified : ClassifiedTask) : LanePlanState :=
  match candidateLane maxLanes state.lanes classified.files with
  | none => state.serialize classified
  | some candidateLaneIndex =>
    let otherLanes :=
      depsInOtherLanes taskMap state.taskToLane candidateLaneIndex classified.task.depends
    if otherLanes ≠ [] then
      { state.serialize classified with
        crossLaneDependencies := state.crossLaneDependencies.set classified.task.id otherLanes }
    else state.place candidateLaneIndex classified

/-- The body of the loop over the ready tasks. -/
def placeTask (config : LanePlannerConfig) (taskMap : OrderedMap JsString ClassifiedTask)
    (state : LanePlanState) (classified : ClassifiedTask) : LanePlanState :=
  if classified.task.id ∈ state.assignedTasks then state
  else
    match classified.category with
    | .global => state.degrade classified (js "global file conflict")
    | .protectedPath =>
      if config.degradeOnRisk then state.degrade classified (js "protected path")
      else state.serialize classified
    | .noScope | .invalidScope => state.serialize classified
    | .normal =>
      if classified.files.any fun file => decide (file ∈ state.claimedFiles) then
        state.resolveConflict config.conflictPolicy classified
      else if classified.files.any fun file => state.claimedFiles.any (pathsConflict file) then
        state.resolveConflict config.conflictPolicy classified
      else state.assignLane config.maxParallelCoders taskMap classified

/-! ## The rounds and the sweep -/

section Plan

variable (host : PlanningHost) (config : LanePlannerConfig) (preflight : PartitionPreflight)
  (isUpstreamCommitted : Option (JsString → Bool))

/-- The ready tasks of a round. -/
def readyLaneTasks (assignedTasks : List JsString) : List ClassifiedTask :=
  getReadyTasks host preflight.sortedTasks assignedTasks
    (makeDependencySatisfactionChecker preflight.taskMap assignedTasks isUpstreamCommitted)

/-- The loop of `planLeanTurboLanes`, for a number of rounds. -/
def planRounds : Nat → LanePlanState → LanePlanState
  | 0, state => state
  | rounds + 1, state =>
    let readyTasks := readyLaneTasks host preflight isUpstreamCommitted state.assignedTasks
    if readyTasks.isEmpty then state
    else planRounds rounds (readyTasks.foldl (placeTask config preflight.taskMap) state)

/-- `sample` and `more` of a leftover's reason. -/
def sampleText (ids : List JsString) : JsString :=
  (js ", ").intercalate (ids.take 3)
    ++ if 3 < ids.length then js ", +" ++ js (toString (ids.length - 3)) ++ js " more" else []

/-- Why a task was left over. -/
def leftoverReason (committed : JsString → Bool) (assignedTasks : List JsString)
    (classified : ClassifiedTask) : JsString :=
  let uncommittedCrossBatch := classified.task.depends.filter fun dep =>
    !(preflight.taskMap.get? dep).isSome && !committed dep
  let unassignedInBatch := classified.task.depends.filter fun dep =>
    (preflight.taskMap.get? dep).isSome && decide (dep ∉ assignedTasks)
  if uncommittedCrossBatch ≠ [] then
    js "cross-batch upstream not committed (greenfield-smart Rule 3): "
      ++ sampleText uncommittedCrossBatch
  else if unassignedInBatch ≠ [] then
    js "unresolved in-batch dependency: " ++ sampleText unassignedInBatch
  else js "planning leftover (no identifiable blocker)"

/-- One task of the sweep. -/
def sweepTask (committed : JsString → Bool) (state : LanePlanState) (classified : ClassifiedTask) :
    LanePlanState :=
  if classified.task.id ∈ state.assignedTasks then state
  else
    let degraded := state.degrade classified
      (leftoverReason preflight committed state.assignedTasks classified)
    { degraded with taskToLane := degraded.taskToLane.set classified.task.id (-1) }

/-- The sweep over the leftovers, only with a predicate. -/
def sweepLeftovers (state : LanePlanState) : LanePlanState :=
  match isUpstreamCommitted with
  | none => state
  | some committed => preflight.sortedTasks.foldl (sweepTask preflight committed) state

/-- The loop and the sweep. -/
def lanePlanEnd : LanePlanState :=
  sweepLeftovers preflight isUpstreamCommitted
    (planRounds host config preflight isUpstreamCommitted preflight.sortedTasks.length
      (lanePlanStart preflight.tasksInCycle))

end Plan

/-- The summary of a plan in which no task gets a lane. -/
def degradationSummary (pending : Nat) (serializedTasks : List JsString)
    (degradedTasks : List LeanTurboDegradedTask) : Option JsString :=
  if degradedTasks ≠ [] ∧ degradedTasks.length + serializedTasks.length = pending then
    let reasons := (degradedTasks.map fun degraded => degraded.reason).eraseDups
    let rule3Count := (degradedTasks.filter fun degraded =>
      includes degraded.reason (js "greenfield-smart Rule 3")).length
    if 0 < rule3Count ∧ degradedTasks.length ≤ 2 * rule3Count then
      some (js "All " ++ js (toString pending) ++ js " tasks degraded. " ++ js (toString rule3Count)
        ++ js " blocked by greenfield-smart Rule 3 — cross-batch upstream(s) not in git history. "
        ++ js "Remediation: verify Epic Mode commit-on-completion is succeeding for upstream "
        ++ js "phases, or commit those tasks manually before re-running.")
    else
      some (js "All " ++ js (toString pending) ++ js " tasks degraded. Reasons: "
        ++ (js ", ").intercalate reasons ++ js ". Consider running in standard (serial) mode.")
  else none

def createEmptyPlan (phaseNumber : Nat) (planId : JsString) : LeanTurboLanePlan :=
  { phase := phaseNumber
    planId := planId
    lanes := []
    degradedTasks := []
    serializedTasks := []
    degradationSummary := none
    counters := ⟨0, 0, 0, 0, 0, 0⟩
    crossLaneDependencies := [] }

/-- The tasks that are planned: all that are not completed. -/
def lanePendingTasks (phase : Phase) : List Task :=
  phase.tasks.filter fun task => task.status ≠ .completed

/-- `planLeanTurboLanes` at the time `now`; `readTaskScopes` reads the scope files,
    for tasks that `scopes` leaves out. -/
def planLeanTurboLanes (host : PlanningHost) (now : Nat)
    (readTaskScopes : JsString → Option (List JsString)) (directory : JsString) (phaseNumber : Nat)
    (phases : List Phase) (config : LanePlannerConfig) (scopes : JsString → Option (List JsString))
    (isUpstreamCommitted : Option (JsString → Bool)) : LeanTurboLanePlan :=
  match phases.find? fun phase => phase.id = phaseNumber with
  | none => createEmptyPlan phaseNumber []
  | some phase =>
    let pendingTasks := lanePendingTasks phase
    if pendingTasks = [] then createEmptyPlan phaseNumber []
    else
      let preflight := runPartitionPreflight host readTaskScopes directory pendingTasks
        config.toLeanTurboConfig scopes
      let state := lanePlanEnd host config preflight isUpstreamCommitted
      { phase := phaseNumber
        planId := js "plan-" ++ js (toString phaseNumber) ++ js "-" ++ js (toString now)
        lanes := state.lanes
        degradedTasks := state.degradedTasks
        serializedTasks := state.serializedTasks
        degradationSummary := degradationSummary pendingTasks.length state.serializedTasks
          state.degradedTasks
        counters := ⟨state.lanes.length, 0, 0, 0, state.serializedTasks.length,
          state.degradedTasks.length⟩
        crossLaneDependencies := state.crossLaneDependencies }

end OpencodeSwarm
