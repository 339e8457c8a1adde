/-
  OpencodeSwarm.Epic.WaveSelect

  The next wave of the current phase (`src/epic/wave-select.ts`): the batch of
  open tasks, the evidence of what they depend on, the scopes the planner sees,
  and what a wave freezes.
-/
import OpencodeSwarm.Epic.Components

namespace OpencodeSwarm

open Js

variable {N : Type} [LinearOrder N]

/-! ## What a wave freezes -/

/-- `MAX_WAVE_COCHANGE_PAIRS`. -/
def maxWaveCochangePairs : Nat := 256

/-- The comparator of the frozen pairs: strongest first, then by file. -/
def comparePairs (host : PlanningHost) (a b : CoChangeEntry N) : Int :=
  if b.npmi < a.npmi then -1
  else if a.npmi < b.npmi then 1
  else host.localeCompare a.fileA b.fileA

def cochangePairsWithin (host : PlanningHost) (files : List JsString)
    (cochange : EpicCochangeSignal N) : List (CoChangeEntry N) :=
  let normalized := files.map normalizePath
  (sortBy (comparePairs host) (cochange.pairs.filter fun pair =>
    cochange.threshold.admits pair && touches normalized pair.fileA
      && touches normalized pair.fileB)).take maxWaveCochangePairs

/-! ## Selecting -/

structure EpicWaveSelectionInput (N : Type) where
  directory : JsString
  plan : Plan
  phaseId : Nat
  liveScopes : JsString → List JsString
  maxParallel : Int
  leanConfig : LeanTurboConfig
  isCommitted : JsString → Bool
  hotFiles : List JsString
  coWrites : Option (EpicCoWriteIndex N)
  cochange : Option (EpicCochangeSignal N)
  densityThreshold : N
  waveHistory : List EpicWaveHistoryEntry

/-- `EpicPredecessorProblem['why']`. -/
inductive PredecessorWhy where
  | removed
  | closed
  | laterPhase
  | notCommitted
  | cycle
  deriving DecidableEq, Repr

structure EpicPredecessorProblem where
  taskId : JsString
  dependency : JsString
  why : PredecessorWhy
  deriving DecidableEq

/-- The fields of a selected wave. -/
structure EpicSelectedWave (N : Type) where
  waveKind : EpicWaveKind
  taskIds : List JsString
  files : OrderedMap JsString (List JsString)
  cochangePairs : List (CoChangeEntry N)
  components : EpicWaveComponents N

inductive EpicWaveSelection (N : Type) where
  | wave (wave : EpicSelectedWave N)
  | declareScopes (tasks : List (JsString × List JsString))
  | taskBlocked (taskIds : List JsString)
  | predecessorMissing (problems : List EpicPredecessorProblem)
  | none

def isResolved (status : TaskStatus) : Bool := status = .completed ∨ status = .closed

/-- The tasks of the plan with the ids of their phases. -/
def planEntries (plan : Plan) : List (Task × Nat) :=
  plan.phases.flatMap fun phase => phase.tasks.map fun task => (task, phase.id)

/-- `indexPlan(plan).get(id)`: the first task of the plan with this id. -/
def planEntry (plan : Plan) (id : JsString) : Option (Task × Nat) :=
  (planEntries plan).find? fun entry => entry.1.id = id

/-- `batch`: the open tasks of the phase that are not blocked. -/
def openTasks (tasks : List Task) : List Task :=
  tasks.filter fun task => !isResolved task.status && task.status != .blocked

/-- The problem with one dependency outside the batch. -/
def dependencyProblem (input : EpicWaveSelectionInput N) (dep : JsString) : Option PredecessorWhy :=
  match planEntry input.plan dep with
  | none => some .removed
  | some (task, phaseId) =>
    if task.status = .closed then some .closed
    else if task.status = .completed then
      if input.isCommitted dep then none else some .notCommitted
    else if phaseId ≠ input.phaseId then some .laterPhase
    else none

/-- `problems` of `selectNextEpicWave`. -/
def predecessorProblems (input : EpicWaveSelectionInput N) (batch : List Task) :
    List EpicPredecessorProblem :=
  batch.flatMap fun task =>
    (task.depends.filter fun dep => dep ∉ batch.map fun task => task.id).filterMap fun dep =>
      (dependencyProblem input dep).map fun why => ⟨task.id, dep, why⟩

/-- `satisfiedOutside` of `selectNextEpicWave`. -/
def satisfiedOutside (input : EpicWaveSelectionInput N) (dep : JsString) : Bool :=
  match planEntry input.plan dep with
  | none => false
  | some (task, _) => task.status = .completed && input.isCommitted dep

/-- `estimated`: the live scope of a batch task, else its `files_touched`.  Of two
    tasks with one id the later one is written last. -/
def estimatedScope (input : EpicWaveSelectionInput N) (batch : List Task) (id : JsString) :
    List JsString :=
  match batch.reverse.find? fun task => task.id = id with
  | none => []
  | some task =>
    if (input.liveScopes id).isEmpty then task.filesTouched else input.liveScopes id

/-- The planning step that `selectNextEpicWave` takes over a batch. -/
def selectionStep (input : EpicWaveSelectionInput N) (batch : List Task) : EpicNextWaveInput N :=
  { directory := input.directory
    tasks := batch
    scopes := estimatedScope input batch
    leanConfig := input.leanConfig
    hotFiles := input.hotFiles
    coWrites := input.coWrites
    cochange := input.cochange
    maxParallel := input.maxParallel
    densityThreshold := input.densityThreshold
    satisfiedOutside := satisfiedOutside input
    history := input.waveHistory }

/-- The problems of a batch without any ready task: its dependencies inside. -/
def cycleProblems (batch : List Task) : List EpicPredecessorProblem :=
  (batch.map fun task =>
    (⟨task.id, (js ", ").intercalate
      (task.depends.filter fun dep => dep ∈ batch.map fun task => task.id), .cycle⟩ :
        EpicPredecessorProblem)).filter fun problem => 0 < problem.dependency.length

/-- The next wave of a phase, or what keeps it from having one. -/
def selectNextEpicWave (host : PlanningHost) (numbers : PlanningNumbers N)
    (input : EpicWaveSelectionInput N) : EpicWaveSelection N :=
  match input.plan.phases.find? fun phase => phase.id = input.phaseId with
  | none => .none
  | some phase =>
    let blocked := blockedIds phase.tasks
    let batch := openTasks phase.tasks
    if batch = [] then if blocked ≠ [] then .taskBlocked blocked else .none
    else
      let problems := predecessorProblems input batch
      if problems ≠ [] then .predecessorMissing problems
      else
        let (partition, choice) := planNextEpicWave host numbers (selectionStep input batch)
        let chosen := (choice.map (·.taskIds)).getD []
        if chosen = [] then
          if blocked ≠ [] then .taskBlocked blocked else .predecessorMissing (cycleProblems batch)
        else
          let undeclared := chosen.filter fun id => (input.liveScopes id).isEmpty
          if undeclared ≠ [] then
            .declareScopes (undeclared.map fun id =>
              (id, ((planEntry input.plan id).map (·.1.filesTouched)).getD []))
          else
            let files : OrderedMap JsString (List JsString) :=
              chosen.foldl (fun files id => files.set id (input.liveScopes id)) []
            .wave
              { waveKind := (choice.map (·.kind)).getD .parallel
                taskIds := chosen
                files := files
                cochangePairs :=
                  match input.cochange with
                  | none => []
                  | some cochange =>
                    cochangePairsWithin host (OrderedMap.values files).flatten cochange
                components := toWaveComponents host numbers partition chosen }

end OpencodeSwarm
