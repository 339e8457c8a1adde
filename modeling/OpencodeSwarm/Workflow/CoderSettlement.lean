/-
  OpencodeSwarm.Workflow.CoderSettlement

  The settlement of one coder dispatch (`src/workflow/coder-settlement.ts`): the
  write-ahead record, the evidence transition it commits, and the durable writes
  of `beginCoderSettlement`, `settleCoderDispatch` and `recoverCoderSettlement`
  one at a time, so that a crash can fall between any two.

  Both the evidence file and the record are written atomically, under one lock.
  A call that throws ends like a crash: the process holds nothing afterwards.
-/
import OpencodeSwarm.Gate.Evidence
import OpencodeSwarm.Lib.Transition

namespace OpencodeSwarm

open Js

/-! ## The write-ahead record -/

inductive CoderSettlementState where
  | aborted
  | committed
  | dispatched
  | prepared
  deriving DecidableEq, Repr

/-- `CoderSettlementWal`, with what the settlement reads of it.  `isolated` says
    that the dispatch ran in a worktree of its own. -/
structure CoderSettlementWal where
  state : CoderSettlementState
  transitionId : JsString
  expectedGeneration : Nat
  declaredFiles : Option (List JsString)
  isolated : Bool
  accepted : Option Bool := none
  testEngineerExempt : Option Bool := none
  settlementFailed : Option Bool := none
  deriving DecidableEq, Repr

def hasUnattributedEmptyScopeMutation (declaredFiles rawObservedFiles : Option (List JsString)) :
    Bool :=
  declaredFiles == some [] && rawObservedFiles.any fun observed => !observed.isEmpty

/-- The event that a prepared settlement stands for. -/
def settlementTransitionEvent (wal : CoderSettlementWal) : WorkflowEvent :=
  if wal.accepted = some true then
    { body := .acceptedMutation
        { agentType := some (js "coder")
          context := some
            { testEngineerExempt := wal.testEngineerExempt == some true
              settlementFailed := wal.settlementFailed == some true } }
      expectedGeneration := some wal.expectedGeneration
      transitionId := some wal.transitionId }
  else
    { body := .dispatchNoMutation
        { agentType := some (js "coder")
          context := some
            { declaredFiles := wal.declaredFiles
              settlementTransitionId := some wal.transitionId } }
      expectedGeneration := some wal.expectedGeneration
      transitionId := some wal.transitionId }

/-- The record binds an empty-scope proof for this event. -/
def trustsNoMutation (wal : CoderSettlementWal) (event : WorkflowEvent)
    (context : GateDerivationContext) : Bool :=
  (wal.state == .prepared || wal.state == .committed) && wal.accepted == some false
    && some wal.transitionId == event.transitionId
    && wal.declaredFiles == some [] && context.declaredFiles == some []

/-- A no-mutation event carries a settlement only if the record bears it out. -/
def bindTrustedNoMutationSettlement (wal : Option CoderSettlementWal) (event : WorkflowEvent) :
    WorkflowEvent :=
  match event.body with
  | .dispatchNoMutation dispatch =>
    match dispatch.context, event.transitionId with
    | some context, some _ =>
      let bound : GateDerivationContext :=
        match wal.filter fun wal => trustsNoMutation wal event context with
        | some wal =>
          { context with
            declaredFiles := wal.declaredFiles
            settlementTransitionId := some wal.transitionId }
        | none => { context with settlementTransitionId := none }
      { event with body := .dispatchNoMutation { dispatch with context := some bound } }
    | _, _ => { event with body := .dispatchNoMutation { dispatch with context := none } }
  | _ => event

/-- `transaction.transition`, under the record on disk. -/
def evidenceTransition (wal : Option CoderSettlementWal) (nowIso : JsString)
    (existing : Option TaskEvidence) (event : WorkflowEvent) : Except WorkflowError TaskEvidence :=
  updateEvidenceForTransition nowIso existing (bindTrustedNoMutationSettlement wal event)

/-- Whether the evidence shows the settlement of the record. -/
def evidenceAlreadySettled (wal : CoderSettlementWal) (snapshot : TaskWorkflowSnapshot) : Bool :=
  if wal.accepted = some true then
    let failed := wal.settlementFailed == some true
    snapshot.authoritative
      && snapshot.state == (if failed then .reworkRequired else .coderDelegated)
      && snapshot.generation == wal.expectedGeneration + 1
      && snapshot.lastOutcome == (if failed then .acceptedMutationFailed else .acceptedMutation)
      && snapshot.lastTransitionId == some wal.transitionId
  else
    snapshot.authoritative && snapshot.generation == wal.expectedGeneration
      && if wal.declaredFiles = some [] then
          snapshot.noMutationSettlement.map (·.transitionId) == some wal.transitionId
        else snapshot.lastOutcome == .dispatchNoMutation
          && snapshot.lastTransitionId == some wal.transitionId

/-! ## The calls -/

/-- What all calls for one transition id agree on. -/
structure CoderSettlement where
  transitionId : JsString
  transitionId_ne : transitionId ≠ []
  expectedGeneration : Nat
  declaredFiles : Option (List JsString)
  isolated : Bool

/-- What `settleCoderDispatch` is given on top. -/
structure SettleOptions where
  accepted : Bool
  testEngineerExempt : Bool
  settlementFailed : Bool := false
  observedFiles : Option (List JsString) := none
  deriving DecidableEq, Repr

/-- What one `recoverCoderSettlement` finds in the workspace: the recorded and
    the changed files, which of them the scope covers, a baseline that can never
    be attributed, a lane that is gone, a merge that went through, and
    `isMarkdownOnlyTaskChange` of the outcome. -/
structure RecoveryObservation where
  recordedFiles : Option (List JsString)
  changedFiles : Option (List JsString)
  inScope : JsString → Bool
  baselineDoomed : Bool
  laneGone : Bool
  merged : Bool
  markdownOnly : Bool

/-- The event of `beginCoderSettlement`. -/
def dispatchEvent (settlement : CoderSettlement) : WorkflowEvent where
  body := .dispatchAttempted { agentType := some (js "coder") }
  expectedGeneration := some settlement.expectedGeneration
  transitionId := some settlement.transitionId

/-- The record `beginCoderSettlement` publishes. -/
def dispatchedWal (settlement : CoderSettlement) : CoderSettlementWal where
  state := .dispatched
  transitionId := settlement.transitionId
  expectedGeneration := settlement.expectedGeneration
  declaredFiles := settlement.declaredFiles
  isolated := settlement.isolated

def CoderSettlementState.isTerminal : CoderSettlementState → Bool
  | .aborted | .committed => true
  | .dispatched | .prepared => false

/-- `beginCoderSettlement` goes on to publish.  A record of the same id returns
    or throws before. -/
def beginPublishes (settlement : CoderSettlement) (evidence : Option TaskEvidence)
    (wal : Option CoderSettlementWal) : Bool :=
  (getTaskWorkflowSnapshot evidence).generation == settlement.expectedGeneration
    && wal.all fun existing =>
      existing.transitionId != settlement.transitionId && existing.state.isTerminal

/-- The record `settleCoderDispatch` hands to `commitPrepared`. -/
def settledWal (settlement : CoderSettlement) (wal : CoderSettlementWal)
    (options : SettleOptions) : Option CoderSettlementWal :=
  let unattributed := hasUnattributedEmptyScopeMutation wal.declaredFiles options.observedFiles
  let prepared : CoderSettlementWal :=
    { wal with
      state := .prepared
      accepted := some (options.accepted || unattributed)
      testEngineerExempt := some options.testEngineerExempt
      settlementFailed := some (options.settlementFailed || unattributed) }
  if wal.transitionId ≠ settlement.transitionId then none
  else
    match wal.state with
    | .aborted => none
    | .dispatched => some prepared
    -- a replay has to bring the decision the record holds
    | .prepared | .committed => if { prepared with state := wal.state } = wal then some wal
      else none

/-- The files `recoverCoderSettlement` attributes to the dispatch. -/
def attributedFiles (wal : CoderSettlementWal) (observation : RecoveryObservation) :
    Option (List JsString) :=
  let inScope (raw : List JsString) : List JsString :=
    if hasUnattributedEmptyScopeMutation wal.declaredFiles (some raw) then raw
    else raw.filter observation.inScope
  if wal.isolated then
    observation.recordedFiles.or
      (if wal.declaredFiles.isSome then observation.changedFiles.map inScope else none)
  else
    observation.changedFiles.map fun raw => if wal.declaredFiles.isNone then [] else inScope raw

/-- How `recoverCoderSettlement` ends before it commits anything. -/
inductive RecoveryOutcome where
  | unchanged
  | abort
  | commit (wal : CoderSettlementWal)

/-- `recoverCoderSettlement`, up to `commitPrepared`.  A live owner makes it
    throw. -/
def recoverCoderSettlement (wal : CoderSettlementWal) (observation : RecoveryObservation) :
    RecoveryOutcome :=
  match wal.state with
  | .aborted | .committed => .unchanged
  | .prepared => .commit wal
  | .dispatched =>
    let raw := if wal.isolated then attributedFiles wal observation else observation.changedFiles
    let unattributed := hasUnattributedEmptyScopeMutation wal.declaredFiles raw
    if wal.isolated && observation.laneGone then .abort
    else if !wal.isolated && observation.changedFiles.isNone && observation.baselineDoomed then
      .abort
    else
      match attributedFiles wal observation with
      | none => .unchanged
      | some observed =>
        if wal.isolated && !observation.merged then .unchanged
        else .commit
          { wal with
            state := .prepared
            accepted := some !observed.isEmpty
            testEngineerExempt := some observation.markdownOnly
            settlementFailed := some (wal.settlementFailed == some true || unattributed) }

/-! ## Durable writes -/

/-- Where the running call stands: what it has written and not yet followed up. -/
inductive SettlementPoint where
  | idle
  | beginning
  | committing
  | evidenceWritten
  deriving DecidableEq, Repr

/-- The two files, the running call, and the other evidence events since the
    record was committed. -/
structure SettlementWorld where
  evidence : Option TaskEvidence
  wal : Option CoderSettlementWal
  point : SettlementPoint
  others : List TimedEvent

inductive SettlementAction where
  | beginEvidence (nowIso : JsString)
  | beginWal
  | settle (options : SettleOptions)
  | recover (observation : RecoveryObservation)
  | commit (nowIso : JsString)
  | writeCommitted
  | crash
  | other (input : TimedEvent)

/-- Another evidence event, bound like every event; a rejected one changes
    nothing. -/
def applyOther (wal : CoderSettlementWal) (existing : Option TaskEvidence) (input : TimedEvent) :
    Option TaskEvidence :=
  applyWorkflowEvent existing
    { input with event := bindTrustedNoMutationSettlement (some wal) input.event }

/-- `commitPrepared` lets the transition through. -/
def commitAdmits (wal : CoderSettlementWal) (snapshot : TaskWorkflowSnapshot) : Bool :=
  wal.state == .prepared
    || (wal.state == .committed && wal.accepted != some true && snapshot.state == .idle)

/-- The first half of `commitPrepared`, up to its first write. -/
def commitPrepared (settlement : CoderSettlement) (world : SettlementWorld) (nowIso : JsString) :
    SettlementWorld :=
  match world.wal.filter (·.transitionId == settlement.transitionId) with
  | none => { world with point := .idle }
  | some wal =>
    let snapshot := getTaskWorkflowSnapshot world.evidence
    if evidenceAlreadySettled wal snapshot then
      { world with wal := some { wal with state := .committed }, point := .idle }
    else if !commitAdmits wal snapshot then { world with point := .idle }
    else
      match evidenceTransition (some wal) nowIso world.evidence (settlementTransitionEvent wal) with
      | .ok next => { world with evidence := some next, point := .evidenceWritten }
      | .error _ => { world with point := .idle }

/-- One step.  A call starts when none is running; what a call refuses leaves
    both files as they are. -/
def settlementStep (settlement : CoderSettlement) (world : SettlementWorld) :
    SettlementAction → SettlementWorld
  | .beginEvidence nowIso =>
    if world.point = .idle ∧ beginPublishes settlement world.evidence world.wal then
      match evidenceTransition world.wal nowIso world.evidence (dispatchEvent settlement) with
      | .ok next => { world with evidence := some next, point := .beginning }
      | .error _ => world
    else world
  | .beginWal =>
    if world.point = .beginning then
      { world with wal := some (dispatchedWal settlement), point := .idle }
    else world
  | .settle options =>
    if world.point = .idle then
      match world.wal.bind fun wal => settledWal settlement wal options with
      | some wal => { world with wal := some wal, point := .committing }
      | none => world
    else world
  | .recover observation =>
    if world.point = .idle then
      match world.wal with
      | none => world
      | some wal =>
        match recoverCoderSettlement wal observation with
        | .unchanged => world
        | .abort => { world with wal := some { wal with state := .aborted } }
        | .commit wal => { world with wal := some wal, point := .committing }
    else world
  | .commit nowIso =>
    if world.point = .committing then commitPrepared settlement world nowIso else world
  | .writeCommitted =>
    if world.point = .evidenceWritten then
      { world with
        wal := world.wal.map fun wal => { wal with state := .committed }
        point := .idle }
    else world
  | .crash => { world with point := .idle }
  | .other input =>
    match world.wal with
    | some wal =>
      if world.point = .idle ∧ wal.transitionId = settlement.transitionId
          ∧ wal.state = .committed then
        { world with
          evidence := applyOther wal world.evidence input
          others := world.others ++ [input] }
      else world
    | none => world

end OpencodeSwarm
