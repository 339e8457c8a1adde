/-
  OpencodeSwarm.Config.PlanSchema

  The durable plan (`src/config/plan-schema.ts`): the records behind
  `PlanSchema`, its refinements as one decidable predicate, and the canonical
  derivation of the active-phase cursor.
-/
import OpencodeSwarm.Lib.JsString

namespace OpencodeSwarm

open Js

/-! ## Records -/

/-- `ExecutionProfileSchema.planning_profile`. -/
inductive PlanningProfile where
  | balanced
  | strict
  deriving DecidableEq, Repr

/-- `ExecutionProfileSchema`. -/
structure ExecutionProfile where
  parallelizationEnabled : Bool
  maxConcurrentTasks : Nat
  councilParallel : Bool
  locked : Bool
  autoProceed : Bool
  commitAfterEachCompletedTask : Bool
  planningProfile : Option PlanningProfile
  deriving DecidableEq, Repr

/-- `TaskStatusSchema`. -/
inductive TaskStatus where
  | pending
  | inProgress
  | completed
  | blocked
  | closed
  deriving DecidableEq, Repr

/-- `TaskSizeSchema`. -/
inductive TaskSize where
  | small
  | medium
  | large
  deriving DecidableEq, Repr

/-- `PhaseStatusSchema`; `completed` is an accepted alias of `complete`. -/
inductive PhaseStatus where
  | pending
  | inProgress
  | complete
  | completed
  | blocked
  | closed
  deriving DecidableEq, Repr

/-- `MigrationStatusSchema`. -/
inductive MigrationStatus where
  | native
  | migrated
  | migrationFailed
  deriving DecidableEq, Repr

/-- `TaskSchema.evidence_class`. -/
inductive EvidenceClass where
  | coderMutation
  | externalGit
  deriving DecidableEq, Repr

/-- `PhaseSchema.type`. -/
inductive PhaseType where
  | code
  | nonCode
  deriving DecidableEq, Repr

/-- `ExternalEvidenceAnchorSchema`. -/
structure ExternalEvidenceAnchor where
  command : JsString
  expect : Option JsString
  expectPrefix : Option JsString
  deriving DecidableEq, Repr

/-- `TaskSchema`. -/
structure Task where
  id : JsString
  phase : Nat
  status : TaskStatus
  size : TaskSize
  description : JsString
  depends : List JsString
  acceptance : Option JsString
  filesTouched : List JsString
  evidencePath : Option JsString
  blockedReason : Option JsString
  frRefs : Option (List JsString)
  evidenceClass : Option EvidenceClass
  evidenceAnchors : Option (List ExternalEvidenceAnchor)
  deriving DecidableEq, Repr

/-- `PhaseSchema`. -/
structure Phase where
  id : Nat
  name : JsString
  status : PhaseStatus
  tasks : List Task
  type : Option PhaseType
  requiredAgents : Option (List JsString)
  deriving DecidableEq, Repr

/-- `PlanSchema`.  `schema_version` is the literal `'1.0.0'` and carries no
    information. -/
structure Plan where
  title : JsString
  swarm : JsString
  currentPhase : Option Nat
  phases : List Phase
  migrationStatus : Option MigrationStatus
  specMtime : Option JsString
  specHash : Option JsString
  executionProfile : Option ExecutionProfile
  deriving DecidableEq, Repr

/-- Every task of the plan, phase by phase. -/
def Plan.tasks (plan : Plan) : List Task := plan.phases.flatMap Phase.tasks

/-! ## Refinements -/

/-- The bounds of `ExternalEvidenceAnchorSchema`, its `superRefine` included. -/
def ExternalEvidenceAnchor.wellFormed (anchor : ExternalEvidenceAnchor) : Bool :=
  (1 ≤ anchor.command.length && anchor.command.length ≤ 400)
    && anchor.expect.all (fun e => e.length ≤ 4096)
    && anchor.expectPrefix.all (fun e => 1 ≤ e.length && e.length ≤ 4096)
    && (anchor.expect.isSome || anchor.expectPrefix.isSome)

/-- The bounds of `TaskSchema`; an `external_git` task pins at least one
    anchor. -/
def Task.wellFormed (task : Task) : Bool :=
  (1 ≤ task.phase && 1 ≤ task.description.length)
    && task.evidenceAnchors.all (fun as =>
      as.length ≤ 16 && as.all ExternalEvidenceAnchor.wellFormed)
    && (task.evidenceClass != some .externalGit
      || task.evidenceAnchors.any (fun as => !as.isEmpty))

def Phase.wellFormed (phase : Phase) : Bool :=
  1 ≤ phase.id && 1 ≤ phase.name.length && phase.tasks.all Task.wellFormed

def ExecutionProfile.wellFormed (profile : ExecutionProfile) : Bool :=
  1 ≤ profile.maxConcurrentTasks && profile.maxConcurrentTasks ≤ 64

/-- What `PlanSchema.safeParse` accepts beyond the shape of the record. -/
def Plan.wellFormed (plan : Plan) : Bool :=
  (1 ≤ plan.title.length && 1 ≤ plan.swarm.length)
    && plan.currentPhase.all (1 ≤ ·)
    && !plan.phases.isEmpty
    && plan.phases.all Phase.wellFormed
    && plan.executionProfile.all ExecutionProfile.wellFormed

/-! ## The active phase -/

/-- Terminal for cursor purposes, and for a task-terminal guard. -/
def TaskStatus.isTerminal : TaskStatus → Bool
  | .completed | .closed => true
  | _ => false

def PhaseStatus.isTerminal : PhaseStatus → Bool
  | .complete | .completed | .closed => true
  | _ => false

/-- Terminal by status, or by having only completed or closed tasks. -/
def Phase.isEffectivelyTerminal (phase : Phase) : Bool :=
  phase.status.isTerminal
    || (!phase.tasks.isEmpty && phase.tasks.all fun task => task.status.isTerminal)

/-- The stored cursor while its phase exists and is not finished, else the
    first unfinished phase, else the last phase. -/
def resolveActivePhaseId (plan : Plan) : Nat :=
  let firstNonTerminal :=
    match plan.phases.find? (fun phase => !phase.isEffectivelyTerminal) with
    | some phase => phase.id
    | none => (plan.phases.getLast?.map Phase.id).getD 1
  match plan.currentPhase with
  | none => firstNonTerminal
  | some cursor =>
    match plan.phases.find? (fun phase => phase.id == cursor) with
    | some phase => if phase.isEffectivelyTerminal then firstNonTerminal else phase.id
    | none => firstNonTerminal

/-- `normalizeCurrentPhaseInPlace`. -/
def normalizeCurrentPhase (plan : Plan) : Plan :=
  { plan with currentPhase := some (resolveActivePhaseId plan) }

/-- The cursor already names the phase the resolver would pick. -/
def Plan.cursorNormalized (plan : Plan) : Prop := normalizeCurrentPhase plan = plan

instance (plan : Plan) : Decidable plan.cursorNormalized :=
  inferInstanceAs (Decidable (normalizeCurrentPhase plan = plan))

/-! ## Small plans -/

/-- A task of phase 1 with nothing but an id and a status. -/
def plainTask (id : String) (status : TaskStatus) : Task where
  id := js id
  phase := 1
  status := status
  size := .small
  description := js "d"
  depends := []
  acceptance := none
  filesTouched := []
  evidencePath := none
  blockedReason := none
  frRefs := none
  evidenceClass := none
  evidenceAnchors := none

/-- A plan of one pending phase holding these tasks. -/
def onePhasePlan (tasks : List Task) : Plan where
  title := js "p"
  swarm := js "s"
  currentPhase := some 1
  phases := [{
    id := 1
    name := js "build"
    status := .pending
    tasks := tasks
    type := none
    requiredAgents := none }]
  migrationStatus := none
  specMtime := none
  specHash := none
  executionProfile := none

end OpencodeSwarm
