/-
  OpencodeSwarm.Gate.Evidence

  The evidence file of one task and the reducer behind it
  (`src/gate-evidence.ts`): the workflow metadata, the recorded gates, the
  required gates, and `updateEvidenceForTransition` over all event kinds.

  A rejected event throws, a duplicate one returns the evidence it was given.
-/
import Mathlib.Logic.Function.Basic
import OpencodeSwarm.Lib.JsString

namespace OpencodeSwarm

open Js

/-! ## Records -/

/-- `TASK_WORKFLOW_STATES`. -/
inductive WorkflowState where
  | idle
  | coderDelegated
  | preCheckPassed
  | reviewerRun
  | testsRun
  | reworkRequired
  | complete
  | blocked
  | closed
  deriving DecidableEq, Repr

def WorkflowState.name : WorkflowState → String
  | .idle => "idle"
  | .coderDelegated => "coder_delegated"
  | .preCheckPassed => "pre_check_passed"
  | .reviewerRun => "reviewer_run"
  | .testsRun => "tests_run"
  | .reworkRequired => "rework_required"
  | .complete => "complete"
  | .blocked => "blocked"
  | .closed => "closed"

/-- `TASK_WORKFLOW_OUTCOMES`. -/
inductive WorkflowOutcome where
  | none
  | dispatchAttempted
  | dispatchNoMutation
  | acceptedMutation
  | acceptedMutationFailed
  | stageAPassed
  | stageAFailed
  | stageBCompleted
  | stageBFailed
  | gateRecorded
  | taskCompleted
  | taskBlocked
  | taskClosed
  | repairIdle
  | externalEvidenceAttested
  | externalEvidenceRevoked
  deriving DecidableEq, Repr

structure GateEvidence where
  sessionId : JsString
  timestamp : JsString
  agent : JsString
  deriving DecidableEq, Repr

/-- `Record<string, GateEvidence>`. -/
abbrev Gates := JsString → Option GateEvidence

/-- An anchor of `ExternalEvidenceBundleSchema`. -/
structure AttestedAnchor where
  command : JsString
  expect : Option JsString
  expectPrefix : Option JsString
  matched : Bool
  exitCode : Int
  stdout : JsString
  deriving DecidableEq, Repr

/-- `ExternalEvidenceBundle`; `class` is the literal `'external_git'`. -/
structure ExternalEvidenceBundle where
  transitionId : JsString
  declarationDigest : JsString
  anchors : List AttestedAnchor
  attestedAt : JsString
  deriving DecidableEq, Repr

/-- The bundle names at least one anchor and every anchor matched. -/
def ExternalEvidenceBundle.fullyMatched (bundle : ExternalEvidenceBundle) : Bool :=
  !bundle.anchors.isEmpty && bundle.anchors.all (·.matched)

/-- `noMutationSettlement`; its generation is the literal 0 and its declared
    files are empty. -/
structure NoMutationSettlement where
  transitionId : JsString
  deriving DecidableEq, Repr

/-- `TaskWorkflowMetadata`.  An absent marker reads as `false`; `schema` is a
    literal. -/
structure TaskWorkflowMetadata where
  generation : Nat
  state : WorkflowState
  retryCount : Nat
  retryHistory : List WorkflowOutcome
  retryEpoch : Nat
  lastOutcome : WorkflowOutcome
  lastTransitionId : Option JsString
  updatedAt : JsString
  forcedCompletion : Bool := false
  supervisedRecovery : Bool := false
  settlementRecovery : Bool := false
  noMutationSettlement : Option NoMutationSettlement := none
  externalEvidence : Option ExternalEvidenceBundle := none
  deriving DecidableEq, Repr

structure TaskWorkflowSnapshot extends TaskWorkflowMetadata where
  authoritative : Bool
  deriving DecidableEq, Repr

/-- `requirements_state`. -/
inductive RequirementsState where
  | known
  | unknown
  deriving DecidableEq, Repr

/-- `repair_provenance`. -/
structure RepairProvenance where
  sourceSha256 : Option JsString
  sourceGeneration : Option Nat
  requirementsReceiptHash : Option JsString
  deriving DecidableEq, Repr

structure TodoScanEvidence where
  priority : JsString
  count : Nat
  details : Option (List JsString)
  recordedAt : Option JsString
  deriving DecidableEq, Repr

structure TaskEvidence where
  taskId : JsString
  requiredGates : List JsString
  gates : Gates
  turbo : Option Bool := none
  requirementsState : Option RequirementsState := none
  testEngineerExempt : Option Bool := none
  planId : Option JsString := none
  planIdentityHash : Option JsString := none
  workflow : Option TaskWorkflowMetadata
  repairProvenance : Option RepairProvenance := none
  todoScan : Option TodoScanEvidence := none

/-! ## Events -/

structure GateDerivationContext where
  testEngineerExempt : Bool := false
  settlementFailed : Bool := false
  declaredFiles : Option (List JsString) := none
  settlementTransitionId : Option JsString := none
  deriving DecidableEq, Repr

/-- What the three dispatch events carry. -/
structure Dispatch where
  agentType : Option JsString := none
  context : Option GateDerivationContext := none
  turbo : Option Bool := none
  deriving DecidableEq, Repr

/-- The gates of Stage B. -/
inductive StageBGate where
  | reviewer
  | testEngineer
  deriving DecidableEq, Repr

def StageBGate.name : StageBGate → String
  | .reviewer => "reviewer"
  | .testEngineer => "test_engineer"

/-- The event kinds with what each carries.  `routeBinding` is read by the
    requirements receipt only. -/
inductive WorkflowEventBody where
  | dispatchAttempted (dispatch : Dispatch)
  | dispatchNoMutation (dispatch : Dispatch)
  | acceptedMutation (dispatch : Dispatch)
  | stageAPassed (supervisedRecovery settlementRecovery : Bool)
  | stageAFailed
  | stageBCompleted (gate : StageBGate) (sessionId : JsString) (routeComplete : Option Bool)
      (turbo : Option Bool) (ensureDefaultStageB : Bool)
  | stageBFailed (gate : StageBGate)
  | gateRecorded (gate sessionId : JsString) (turbo : Option Bool)
  | taskCompleted (qaExempt readOnlyNoMutation externalEvidence : Bool)
  | taskBlocked
  | taskClosed
  | repairIdle
  | externalEvidenceAttested (bundle : ExternalEvidenceBundle)
  | externalEvidenceRevoked
  deriving DecidableEq, Repr

def WorkflowEventBody.type : WorkflowEventBody → String
  | .dispatchAttempted _ => "dispatch_attempted"
  | .dispatchNoMutation _ => "dispatch_no_mutation"
  | .acceptedMutation _ => "accepted_mutation"
  | .stageAPassed _ _ => "stage_a_passed"
  | .stageAFailed => "stage_a_failed"
  | .stageBCompleted _ _ _ _ _ => "stage_b_completed"
  | .stageBFailed _ => "stage_b_failed"
  | .gateRecorded _ _ _ => "gate_recorded"
  | .taskCompleted _ _ _ => "task_completed"
  | .taskBlocked => "task_blocked"
  | .taskClosed => "task_closed"
  | .repairIdle => "repair_idle"
  | .externalEvidenceAttested _ => "external_evidence_attested"
  | .externalEvidenceRevoked => "external_evidence_revoked"

/-- `TaskWorkflowTransitionEvent`. -/
structure WorkflowEvent where
  body : WorkflowEventBody
  expectedGeneration : Option Nat := none
  transitionId : Option JsString := none
  deriving DecidableEq, Repr

/-- The outcome an event records as the last one. -/
def getEventOutcome (event : WorkflowEvent) : WorkflowOutcome :=
  match event.body with
  | .dispatchAttempted _ => .dispatchAttempted
  | .dispatchNoMutation _ => .dispatchNoMutation
  | .acceptedMutation dispatch =>
    if (dispatch.context.getD {}).settlementFailed then .acceptedMutationFailed
    else .acceptedMutation
  | .stageAPassed _ _ => .stageAPassed
  | .stageAFailed => .stageAFailed
  | .stageBCompleted _ _ _ _ _ => .stageBCompleted
  | .stageBFailed _ => .stageBFailed
  | .gateRecorded _ _ _ => .gateRecorded
  | .taskCompleted _ _ _ => .taskCompleted
  | .taskBlocked => .taskBlocked
  | .taskClosed => .taskClosed
  | .repairIdle => .repairIdle
  | .externalEvidenceAttested _ => .externalEvidenceAttested
  | .externalEvidenceRevoked => .externalEvidenceRevoked

/-- What a transition throws. -/
inductive WorkflowError where
  | generationMismatch (expected current : Nat)
  | terminal (type : String) (state : WorkflowState)
  | rejectRequiresStageA (gate : StageBGate) (state : WorkflowState)
  | recordRequiresStageA (gate : StageBGate) (state : WorkflowState)
  | passRequiresMutation (state : WorkflowState)
  | failRequiresMutation (state : WorkflowState)
  | externalAttestState (state : WorkflowState)
  | qaRequired (state : WorkflowState)
  deriving DecidableEq, Repr

def WorkflowError.message : WorkflowError → String
  | .generationMismatch expected current =>
    s!"TASK_WORKFLOW_GENERATION_MISMATCH: expected {expected}, current {current}"
  | .terminal type state => s!"TASK_WORKFLOW_TERMINAL: cannot apply {type} from {state.name}"
  | .rejectRequiresStageA gate state =>
    s!"TASK_WORKFLOW_STAGE_A_REQUIRED: cannot reject {gate.name} from {state.name}"
  | .recordRequiresStageA gate state =>
    s!"TASK_WORKFLOW_STAGE_A_REQUIRED: cannot record {gate.name} from {state.name}"
  | .passRequiresMutation state =>
    s!"TASK_WORKFLOW_CODER_MUTATION_REQUIRED: cannot pass Stage A from {state.name}"
  | .failRequiresMutation state =>
    s!"TASK_WORKFLOW_CODER_MUTATION_REQUIRED: cannot fail Stage A from {state.name}"
  | .externalAttestState state =>
    "TASK_WORKFLOW_EXTERNAL_ATTEST_STATE: external evidence can only be attested from idle "
      ++ s!"(task never entered the coder QA lifecycle), not {state.name}"
  | .qaRequired state => s!"TASK_WORKFLOW_QA_REQUIRED: cannot complete from {state.name}"

/-! ## Required gates -/

/-- `TASK_GATE_REQUIREMENTS_RECONSTRUCTION_SENTINEL`. -/
def reconstructionSentinel : JsString := js "requirements_reconstruction"

/-- The agent types that require the gate of their own name and nothing else. -/
def singleGateAgents : List JsString :=
  [js "docs", js "explorer", js "sme", js "reviewer", js "test_engineer", js "critic",
    js "critic_sounding_board", js "critic_drift_verifier", js "critic_hallucination_verifier",
    js "critic_architecture_supervisor"]

def deriveRequiredGates (agentType : JsString) (context : GateDerivationContext) :
    List JsString :=
  if agentType = js "coder" then
    if context.testEngineerExempt then [js "reviewer"] else [js "reviewer", js "test_engineer"]
  else if agentType = js "designer" then [js "designer", js "reviewer", js "test_engineer"]
  else if agentType ∈ singleGateAgents then [agentType]
  else [js "reviewer", js "test_engineer"]

def expandRequiredGates (existingGates : List JsString) (newAgentType : JsString)
    (context : GateDerivationContext) : List JsString :=
  sortStrings (existingGates ++ deriveRequiredGates newAgentType context).dedup

/-- The gates a task needs after an event. -/
def maybeExpandRequiredGates (existing : Option TaskEvidence) (event : WorkflowEvent) :
    List JsString :=
  let current := (existing.map (·.requiredGates)).getD []
  let recorded (gate : JsString) : List JsString :=
    match existing with
    | some evidence => expandRequiredGates evidence.requiredGates gate {}
    | none => deriveRequiredGates gate {}
  match event.body with
  | .acceptedMutation dispatch =>
    match dispatch.agentType with
    | none => current
    | some agentType =>
      if isBlank agentType then current
      else match existing with
      | some evidence =>
        expandRequiredGates (evidence.requiredGates.filter (· != reconstructionSentinel))
          agentType (dispatch.context.getD {})
      | none => deriveRequiredGates agentType (dispatch.context.getD {})
  | .stageBCompleted gate _ _ _ ensureDefaultStageB =>
    if ensureDefaultStageB then expandRequiredGates current (js "coder") {}
    else recorded (js gate.name)
  | .gateRecorded gate _ _ => recorded gate
  | _ => current

def hasAllRequiredGatesPassed (requiredGates : List JsString) (gates : Gates) : Bool :=
  !requiredGates.isEmpty && requiredGates.all fun gate => (gates gate).isSome

/-! ## Gate proofs -/

/-- The gates that a new generation has to earn again. -/
def workflowProofGates : List JsString :=
  [js "pre_check", js "reviewer", js "test_engineer", js "council", js "critic",
    js "critic_sounding_board"]

def clearWorkflowGateProof (gates : Gates) : Gates :=
  fun gate => if gate ∈ workflowProofGates then none else gates gate

/-- The gate an event writes an entry for, with the entry. -/
def recordedGate (nowIso : JsString) : WorkflowEventBody → Option (JsString × GateEvidence)
  | .stageAPassed _ _ => some (js "pre_check", ⟨js "system", nowIso, js "pre_check"⟩)
  | .stageBCompleted gate sessionId _ _ _ =>
    some (js gate.name, ⟨sessionId, nowIso, js gate.name⟩)
  | .gateRecorded gate sessionId _ => some (gate, ⟨sessionId, nowIso, gate⟩)
  | _ => none

/-- `gates` in `updateEvidenceForTransition`. -/
def gatesForTransition (nowIso : JsString) (gates : Gates) (body : WorkflowEventBody) : Gates :=
  match body with
  | .acceptedMutation _ | .repairIdle => clearWorkflowGateProof gates
  | .stageAFailed => Function.update gates (js "pre_check") none
  | .stageBFailed _ =>
    Function.update (Function.update gates (js "reviewer") none) (js "test_engineer") none
  | body =>
    match recordedGate nowIso body with
    | some (gate, entry) => Function.update gates gate (some entry)
    | none => gates

/-! ## Snapshots -/

def createDefaultWorkflowMetadata (nowIso : JsString) : TaskWorkflowMetadata where
  generation := 0
  state := .idle
  retryCount := 0
  retryHistory := []
  retryEpoch := 0
  lastOutcome := .none
  lastTransitionId := none
  updatedAt := nowIso

def getTaskWorkflowSnapshot (evidence : Option TaskEvidence) : TaskWorkflowSnapshot :=
  match evidence.bind (·.workflow) with
  | some workflow => { workflow with authoritative := true }
  | none => { createDefaultWorkflowMetadata [] with authoritative := false }

/-- The trusted binding of a settlement that declared no files. -/
def bindsEmptySettlement (event : WorkflowEvent) : Bool :=
  match event.body with
  | .dispatchNoMutation dispatch =>
    let context := dispatch.context.getD {}
    dispatch.context.isSome && context.declaredFiles == some []
      && context.settlementTransitionId == event.transitionId
  | _ => false

def isDuplicateTransition (snapshot : TaskWorkflowSnapshot) (event : WorkflowEvent) : Bool :=
  if bindsEmptySettlement event && snapshot.noMutationSettlement.isNone then false
  else
    snapshot.authoritative && event.transitionId.any (fun id => !id.isEmpty)
      && snapshot.lastTransitionId == event.transitionId
      && snapshot.lastOutcome == getEventOutcome event

def isNoMutationSettlementMetadata (workflow : TaskWorkflowSnapshot) : Bool :=
  workflow.authoritative && workflow.generation == 0
    && workflow.noMutationSettlement.any (fun settlement => !settlement.transitionId.isEmpty)
    && (workflow.state == .idle || workflow.state == .complete)

/-! ## The reducer -/

/-- The transitions that leave or repeat a terminal state. -/
def admittedFromTerminal (state : WorkflowState) (body : WorkflowEventBody) : Bool :=
  match body with
  | .repairIdle => true
  | .taskCompleted _ _ _ => state == .complete
  | .taskBlocked | .taskClosed => state == .blocked
  | .stageAPassed _ settlementRecovery => state == .blocked && settlementRecovery
  | _ => false

def WorkflowState.isTerminal (state : WorkflowState) : Bool :=
  state == .complete || state == .blocked || state == .closed

/-- `base`: every field is carried over but the last-transition fields. -/
def baseMetadata (current : TaskWorkflowSnapshot) (event : WorkflowEvent) (nowIso : JsString) :
    TaskWorkflowMetadata :=
  { current.toTaskWorkflowMetadata with
    lastOutcome := getEventOutcome event
    lastTransitionId := event.transitionId.or current.lastTransitionId
    updatedAt := nowIso }

/-- One more failed attempt, as four of the event kinds count it. -/
def countRetry (metadata : TaskWorkflowMetadata) (generation : Nat) (outcome : WorkflowOutcome) :
    TaskWorkflowMetadata :=
  let history := metadata.retryHistory ++ [outcome]
  { metadata with
    retryCount := min (metadata.retryCount + 1) 3
    retryHistory := history.drop (history.length - 3)
    retryEpoch := if metadata.retryEpoch = 0 then generation + 1 else metadata.retryEpoch }

/-- The marker a `dispatch_no_mutation` leaves, on a generation-0 settlement of
    an empty scope. -/
def noMutationMarker (current : TaskWorkflowSnapshot) (event : WorkflowEvent) :
    Option NoMutationSettlement :=
  match truthyString event.transitionId with
  | some transitionId =>
    if current.generation = 0 ∧ bindsEmptySettlement event then some ⟨transitionId⟩ else none
  | none => none

/-- What admits `task_completed`, apart from `qaExempt`. -/
def readOnlyAdmitted (current : TaskWorkflowSnapshot) (requiredGates : List JsString)
    (gates : Gates) (readOnlyNoMutation : Bool) : Bool :=
  readOnlyNoMutation && current.state == .idle && current.generation == 0
    && isNoMutationSettlementMetadata current && requiredGates.all fun gate => (gates gate).isSome

def externalAdmitted (current : TaskWorkflowSnapshot) (externalEvidence : Bool) : Bool :=
  externalEvidence && current.externalEvidence.any (·.fullyMatched)
    && (current.state == .idle || current.state == .complete)

/-- The workflow metadata after an event; terminal states admit few of them. -/
def reduceTaskWorkflowSnapshot (current : TaskWorkflowSnapshot) (event : WorkflowEvent)
    (requiredGates : List JsString) (gates : Gates) (nowIso : JsString) :
    Except WorkflowError TaskWorkflowMetadata :=
  if current.state.isTerminal && !admittedFromTerminal current.state event.body then
    .error (.terminal event.body.type current.state)
  else
    let base := baseMetadata current event nowIso
    let outcome := getEventOutcome event
    match event.body with
    | .dispatchAttempted _ =>
      .ok { base with noMutationSettlement := none, externalEvidence := none }
    | .dispatchNoMutation _ =>
      .ok { countRetry base current.generation outcome with
        noMutationSettlement := noMutationMarker current event
        externalEvidence := none }
    | .stageBFailed gate =>
      if current.state ∈ [.preCheckPassed, .reviewerRun, .testsRun, .reworkRequired] then
        .ok { countRetry base current.generation outcome with state := .reworkRequired }
      else .error (.rejectRequiresStageA gate current.state)
    | .acceptedMutation dispatch =>
      let rotated := { base with
        generation := current.generation + 1
        supervisedRecovery := false
        settlementRecovery := false
        noMutationSettlement := none
        externalEvidence := none }
      if (dispatch.context.getD {}).settlementFailed then
        .ok { countRetry rotated current.generation outcome with state := .reworkRequired }
      else .ok { rotated with state := .coderDelegated }
    | .stageAPassed supervisedRecovery settlementRecovery =>
      if current.state ∈ [.coderDelegated, .preCheckPassed]
          ∨ (current.state = .reworkRequired ∧ supervisedRecovery)
          ∨ (settlementRecovery ∧ current.state ∈ [.idle, .blocked]) then
        .ok { base with
          supervisedRecovery := supervisedRecovery || base.supervisedRecovery
          settlementRecovery := settlementRecovery || base.settlementRecovery
          state := .preCheckPassed }
      else .error (.passRequiresMutation current.state)
    | .stageAFailed =>
      if current.state ∈ [.coderDelegated, .preCheckPassed, .reworkRequired] then
        .ok { countRetry base current.generation outcome with state := .reworkRequired }
      else .error (.failRequiresMutation current.state)
    | .stageBCompleted gate _ routeComplete _ _ =>
      if current.state ∈ [.preCheckPassed, .reviewerRun, .testsRun] then
        match routeComplete with
        | some false =>
          .ok { base with
            state := if gate = .reviewer ∨ current.state = .reviewerRun then .reviewerRun
              else current.state }
        | some true => .ok { base with state := .testsRun }
        | none =>
          .ok { base with
            state := if hasAllRequiredGatesPassed requiredGates gates then .testsRun
              else .reviewerRun }
      else .error (.recordRequiresStageA gate current.state)
    | .gateRecorded _ _ _ => .ok base
    | .externalEvidenceAttested bundle =>
      if current.state = .idle then
        -- a replay of the same attest keeps the bundle, so `attestedAt` stands
        if current.externalEvidence.map (·.transitionId) = some bundle.transitionId then .ok base
        else .ok { base with externalEvidence := some bundle }
      else .error (.externalAttestState current.state)
    | .externalEvidenceRevoked => .ok { base with externalEvidence := none }
    | .taskCompleted qaExempt readOnlyNoMutation externalEvidence =>
      if qaExempt ∨ current.state = .testsRun ∨ current.state = .complete
          ∨ (current.state = .preCheckPassed ∧ (gates (js "council")).isSome)
          ∨ readOnlyAdmitted current requiredGates gates readOnlyNoMutation
          ∨ externalAdmitted current externalEvidence then
        .ok { base with
          state := .complete
          forcedCompletion := qaExempt || base.forcedCompletion }
      else .error (.qaRequired current.state)
    | .taskBlocked => .ok { base with state := .blocked }
    | .taskClosed => .ok { base with state := .closed }
    | .repairIdle =>
      .ok { base with
        generation := current.generation + 1
        state := .idle
        retryCount := 0
        retryHistory := []
        retryEpoch := 0
        forcedCompletion := false
        supervisedRecovery := false
        settlementRecovery := false
        noMutationSettlement := none
        externalEvidence := none }

/-! ## The evidence update -/

/-- `event.turbo`, where the kind has it. -/
def WorkflowEventBody.turbo : WorkflowEventBody → Option Bool
  | .dispatchAttempted dispatch | .dispatchNoMutation dispatch | .acceptedMutation dispatch =>
    dispatch.turbo
  | .stageBCompleted _ _ _ turbo _ => turbo
  | .gateRecorded _ _ turbo => turbo
  | _ => none

/-- The dispatch a dispatch event carries. -/
def WorkflowEventBody.dispatch? : WorkflowEventBody → Option Dispatch
  | .dispatchAttempted dispatch | .dispatchNoMutation dispatch | .acceptedMutation dispatch =>
    some dispatch
  | _ => none

/-- `test_engineer_exempt` of the next evidence. -/
def nextTestEngineerExempt (existing : Option TaskEvidence) (requiredGates : List JsString)
    (body : WorkflowEventBody) : Option Bool :=
  match body.dispatch?.filter (fun dispatch => dispatch.agentType == some (js "coder")) with
  | some dispatch =>
    some ((dispatch.context.getD {}).testEngineerExempt
      && !requiredGates.contains (js "test_engineer"))
  | none => existing.bind (·.testEngineerExempt)

/-- The gates recorded so far. -/
def gatesOf (existing : Option TaskEvidence) : Gates :=
  match existing with
  | some evidence => evidence.gates
  | none => fun _ => none

/-- The object `updateEvidenceForTransition` returns around the reduced
    metadata. -/
def nextEvidence (nowIso : JsString) (existing : Option TaskEvidence) (event : WorkflowEvent)
    (workflow : TaskWorkflowMetadata) : TaskEvidence :=
  let requiredGates := maybeExpandRequiredGates existing event
  { taskId := (existing.map (·.taskId)).getD []
    requiredGates := requiredGates
    gates := gatesForTransition nowIso (gatesOf existing) event.body
    turbo := if event.body.turbo = some true then some true else existing.bind (·.turbo)
    requirementsState := existing.bind (·.requirementsState)
    testEngineerExempt := nextTestEngineerExempt existing requiredGates event.body
    workflow := some workflow
    repairProvenance := existing.bind (·.repairProvenance)
    todoScan := existing.bind (·.todoScan) }

/-- One event on the evidence: a duplicate leaves it, an error drops the event. -/
def updateEvidenceForTransition (nowIso : JsString) (existing : Option TaskEvidence)
    (event : WorkflowEvent) : Except WorkflowError TaskEvidence :=
  let snapshot := getTaskWorkflowSnapshot existing
  -- `assertExpectedGeneration`
  match event.expectedGeneration.filter (· != snapshot.generation) with
  | some expected => .error (.generationMismatch expected snapshot.generation)
  | none =>
    match existing.filter fun _ => isDuplicateTransition snapshot event with
    | some evidence => .ok evidence
    | none => do
      let workflow ← reduceTaskWorkflowSnapshot snapshot event
        (maybeExpandRequiredGates existing event)
        (gatesForTransition nowIso (gatesOf existing) event.body) nowIso
      return nextEvidence nowIso existing event workflow

/-! ## What a transition does -/

/-- The events that open a generation. -/
def WorkflowEventBody.opensGeneration : WorkflowEventBody → Bool
  | .acceptedMutation _ | .repairIdle => true
  | _ => false

/-- The state an accepted event leads to, and what it asks of the state before. -/
def StateStep (current : TaskWorkflowSnapshot) (requiredGates : List JsString) (gates : Gates)
    (next : WorkflowState) : WorkflowEventBody → Prop
  | .dispatchAttempted _ | .dispatchNoMutation _ | .gateRecorded _ _ _
  | .externalEvidenceRevoked => next = current.state
  | .externalEvidenceAttested _ => current.state = .idle ∧ next = .idle
  | .acceptedMutation _ => next = .coderDelegated ∨ next = .reworkRequired
  | .stageAPassed _ settlementRecovery =>
    next = .preCheckPassed ∧ (current.state = .blocked → settlementRecovery = true)
  | .stageAFailed => current.state ≠ .testsRun ∧ next = .reworkRequired
  | .stageBFailed _ => next = .reworkRequired
  | .stageBCompleted _ _ routeComplete _ _ =>
    current.state ∈ [.preCheckPassed, .reviewerRun, .testsRun]
      ∧ next ∈ [.preCheckPassed, .reviewerRun, .testsRun]
      ∧ (routeComplete = none → next = .testsRun → hasAllRequiredGatesPassed requiredGates gates)
  | .taskCompleted qaExempt readOnlyNoMutation externalEvidence =>
    next = .complete
      ∧ (qaExempt = true ∨ current.state = .testsRun ∨ current.state = .complete
        ∨ (current.state = .preCheckPassed ∧ (gates (js "council")).isSome)
        ∨ readOnlyAdmitted current requiredGates gates readOnlyNoMutation = true
        ∨ externalAdmitted current externalEvidence = true)
  | .taskBlocked => next = .blocked
  | .taskClosed => next = .closed
  | .repairIdle => next = .idle

/-- What an accepted event does to the metadata. -/
structure ReducerStep (current : TaskWorkflowSnapshot) (event : WorkflowEvent)
    (requiredGates : List JsString) (gates : Gates) (next : TaskWorkflowMetadata) : Prop where
  admitted : current.state.isTerminal = true →
    admittedFromTerminal current.state event.body = true
  generation : next.generation
    = current.generation + if event.body.opensGeneration then 1 else 0
  lastOutcome : next.lastOutcome = getEventOutcome event
  lastTransitionId : next.lastTransitionId = event.transitionId.or current.lastTransitionId
  state : StateStep current requiredGates gates next.state event.body

variable {event : WorkflowEvent} {nowIso : JsString} {current : TaskWorkflowSnapshot}
  {requiredGates : List JsString} {gates : Gates}

theorem reducerStep_of_ok {next : TaskWorkflowMetadata}
    (h : reduceTaskWorkflowSnapshot current event requiredGates gates nowIso = .ok next) :
    ReducerStep current event requiredGates gates next := by
  obtain ⟨body, expectedGeneration, transitionId⟩ := event
  unfold reduceTaskWorkflowSnapshot at h
  split at h
  · cases h
  rename_i hterminal
  have hadmitted : current.state.isTerminal = true →
      admittedFromTerminal current.state body = true := by
    intro hstate
    simpa [hstate] using hterminal
  cases body with
  | dispatchAttempted dispatch | dispatchNoMutation dispatch | gateRecorded gate sessionId turbo
  | taskBlocked | taskClosed | repairIdle | externalEvidenceRevoked =>
    cases h
    exact ⟨hadmitted, rfl, rfl, rfl, rfl⟩
  | acceptedMutation dispatch =>
    dsimp only at h
    split at h
    · cases h
      exact ⟨hadmitted, rfl, rfl, rfl, Or.inr rfl⟩
    · cases h
      exact ⟨hadmitted, rfl, rfl, rfl, Or.inl rfl⟩
  | stageAPassed supervisedRecovery settlementRecovery =>
    dsimp only at h
    split at h
    · rename_i hguard
      cases h
      refine ⟨hadmitted, rfl, rfl, rfl, rfl, ?_⟩
      intro hblocked
      simpa [hblocked] using hguard
    · cases h
  | stageAFailed =>
    dsimp only at h
    split at h
    · rename_i hguard
      cases h
      refine ⟨hadmitted, rfl, rfl, rfl, ?_, rfl⟩
      intro htests
      simp [htests] at hguard
    · cases h
  | stageBCompleted gate sessionId routeComplete turbo ensureDefaultStageB =>
    dsimp only at h
    split at h
    · rename_i hguard
      cases routeComplete with
      | none =>
        cases h
        refine ⟨hadmitted, rfl, rfl, rfl, hguard, ?_, ?_⟩
        · split <;> simp
        · intro _ htests
          split at htests
          · assumption
          · cases htests
      | some complete =>
        cases complete with
        | true =>
          cases h
          exact ⟨hadmitted, rfl, rfl, rfl, hguard, by simp, fun hnone => by cases hnone⟩
        | false =>
          cases h
          refine ⟨hadmitted, rfl, rfl, rfl, hguard, ?_, fun hnone => by cases hnone⟩
          split
          · simp
          · exact hguard
    · cases h
  | stageBFailed gate =>
    dsimp only at h
    split at h
    · cases h
      exact ⟨hadmitted, rfl, rfl, rfl, rfl⟩
    · cases h
  | taskCompleted qaExempt readOnlyNoMutation externalEvidence =>
    dsimp only at h
    split at h
    · rename_i hguard
      cases h
      exact ⟨hadmitted, rfl, rfl, rfl, rfl, hguard⟩
    · cases h
  | externalEvidenceAttested bundle =>
    dsimp only at h
    split at h
    · rename_i hidle
      split at h
      · cases h
        exact ⟨hadmitted, rfl, rfl, rfl, hidle, hidle⟩
      · cases h
        exact ⟨hadmitted, rfl, rfl, rfl, hidle, hidle⟩
    · cases h

/-- An event that the evidence takes: neither rejected nor a duplicate. -/
structure Takes (nowIso : JsString) (existing : Option TaskEvidence) (event : WorkflowEvent)
    (next : TaskEvidence) (workflow : TaskWorkflowMetadata) : Prop where
  fresh : isDuplicateTransition (getTaskWorkflowSnapshot existing) event = false
  generation : ∀ expected, event.expectedGeneration = some expected →
    expected = (getTaskWorkflowSnapshot existing).generation
  reduced : reduceTaskWorkflowSnapshot (getTaskWorkflowSnapshot existing) event
    (maybeExpandRequiredGates existing event)
    (gatesForTransition nowIso (gatesOf existing) event.body) nowIso = .ok workflow
  next_eq : next = nextEvidence nowIso existing event workflow

theorem isDuplicateTransition_none (event : WorkflowEvent) :
    isDuplicateTransition (getTaskWorkflowSnapshot none) event = false := by
  unfold isDuplicateTransition
  split
  · rfl
  · rfl

theorem lastOutcome_of_duplicate {snapshot : TaskWorkflowSnapshot}
    (h : isDuplicateTransition snapshot event = true) :
    snapshot.lastOutcome = getEventOutcome event := by
  unfold isDuplicateTransition at h
  split at h
  · cases h
  rw [Bool.and_eq_true, beq_iff_eq] at h
  exact h.2

/-- A duplicate at the expected generation returns the evidence it was given. -/
theorem updateEvidence_of_duplicate {evidence : TaskEvidence}
    (hgeneration : ∀ expected, event.expectedGeneration = some expected →
      expected = (getTaskWorkflowSnapshot (some evidence)).generation)
    (hduplicate : isDuplicateTransition (getTaskWorkflowSnapshot (some evidence)) event = true) :
    updateEvidenceForTransition nowIso (some evidence) event = .ok evidence := by
  have hexpected : event.expectedGeneration.filter
      (· != (getTaskWorkflowSnapshot (some evidence)).generation) = none := by
    rw [Option.filter_eq_none_iff]
    intro expected hsome
    simp [hgeneration expected hsome]
  have hfilter : ((some evidence).filter
      fun _ => isDuplicateTransition (getTaskWorkflowSnapshot (some evidence)) event)
      = some evidence := by
    rw [Option.filter_some, if_pos hduplicate]
  dsimp only [updateEvidenceForTransition]
  rw [hexpected, hfilter]

variable {existing : Option TaskEvidence}

theorem updateEvidence_of_mismatch {expected : Nat}
    (hexpected : event.expectedGeneration = some expected)
    (hmismatch : (getTaskWorkflowSnapshot existing).generation ≠ expected) :
    updateEvidenceForTransition nowIso existing event
      = .error (.generationMismatch expected (getTaskWorkflowSnapshot existing).generation) := by
  have hfilter : event.expectedGeneration.filter
      (· != (getTaskWorkflowSnapshot existing).generation) = some expected := by
    rw [hexpected, Option.filter_some, if_pos (by simpa using hmismatch.symm)]
  dsimp only [updateEvidenceForTransition]
  rw [hfilter]

variable {dispatch : Dispatch}

theorem state_of_reduce_acceptedMutation {next : TaskWorkflowMetadata}
    (hbody : event.body = .acceptedMutation dispatch)
    (h : reduceTaskWorkflowSnapshot current event requiredGates gates nowIso = .ok next) :
    next.state = if (dispatch.context.getD {}).settlementFailed then .reworkRequired
      else .coderDelegated := by
  unfold reduceTaskWorkflowSnapshot at h
  split at h
  · cases h
  rw [hbody] at h
  dsimp only at h
  split at h
  · rename_i hfailed
    cases h
    rw [if_pos hfailed]
  · rename_i hfailed
    cases h
    rw [if_neg hfailed]

theorem proof_of_reduce_dispatchNoMutation {next : TaskWorkflowMetadata}
    (hbody : event.body = .dispatchNoMutation dispatch)
    (h : reduceTaskWorkflowSnapshot current event requiredGates gates nowIso = .ok next) :
    next.noMutationSettlement = noMutationMarker current event := by
  unfold reduceTaskWorkflowSnapshot at h
  split at h
  · cases h
  rw [hbody] at h
  cases h
  rfl

variable {next : TaskEvidence}

/-- An accepted event is a duplicate that changes nothing, or is taken. -/
theorem updateEvidence_cases (h : updateEvidenceForTransition nowIso existing event = .ok next) :
    (existing = some next ∧ isDuplicateTransition (getTaskWorkflowSnapshot existing) event = true)
      ∨ ∃ workflow, Takes nowIso existing event next workflow := by
  dsimp only [updateEvidenceForTransition] at h
  cases hexpected : event.expectedGeneration.filter
      (· != (getTaskWorkflowSnapshot existing).generation) with
  | some expected =>
    rw [hexpected] at h
    cases h
  | none =>
    rw [hexpected] at h
    have hgeneration : ∀ expected, event.expectedGeneration = some expected →
        expected = (getTaskWorkflowSnapshot existing).generation := by
      intro expected hsome
      rw [hsome] at hexpected
      simpa using hexpected
    cases hfilter : existing.filter
        fun _ => isDuplicateTransition (getTaskWorkflowSnapshot existing) event with
    | some evidence =>
      rw [hfilter] at h
      cases h
      rw [Option.filter_eq_some_iff] at hfilter
      exact Or.inl hfilter
    | none =>
      rw [hfilter] at h
      have hfresh : isDuplicateTransition (getTaskWorkflowSnapshot existing) event = false := by
        cases existing with
        | none => exact isDuplicateTransition_none event
        | some evidence => simpa using hfilter
      cases hreduce : reduceTaskWorkflowSnapshot (getTaskWorkflowSnapshot existing) event
          (maybeExpandRequiredGates existing event)
          (gatesForTransition nowIso (gatesOf existing) event.body) nowIso with
      | error e =>
        rw [hreduce] at h
        cases h
      | ok workflow =>
        rw [hreduce] at h
        cases h
        exact Or.inr ⟨workflow, hfresh, hgeneration, hreduce, rfl⟩

variable {workflow : TaskWorkflowMetadata}

theorem Takes.update (h : Takes nowIso existing event next workflow) :
    updateEvidenceForTransition nowIso existing event = .ok next := by
  have hexpected : event.expectedGeneration.filter
      (· != (getTaskWorkflowSnapshot existing).generation) = none := by
    rw [Option.filter_eq_none_iff]
    intro expected hsome
    simp [h.generation expected hsome]
  have hfilter : (existing.filter
      fun _ => isDuplicateTransition (getTaskWorkflowSnapshot existing) event) = none := by
    rw [h.fresh]
    simp
  dsimp only [updateEvidenceForTransition]
  rw [hexpected, hfilter]
  rw [h.reduced, h.next_eq]
  rfl

theorem Takes.step (h : Takes nowIso existing event next workflow) :
    ReducerStep (getTaskWorkflowSnapshot existing) event next.requiredGates next.gates
      workflow := by
  have hstep := reducerStep_of_ok h.reduced
  rw [h.next_eq]
  exact hstep

theorem Takes.snapshot (h : Takes nowIso existing event next workflow) :
    getTaskWorkflowSnapshot (some next) = { workflow with authoritative := true } := by
  rw [h.next_eq]
  rfl

/-! ## Runs -/

/-- One call of the transition: the event and the clock it reads. -/
structure TimedEvent where
  event : WorkflowEvent
  nowIso : JsString

/-- One event over the stored evidence; a rejected one changes nothing. -/
def applyWorkflowEvent (existing : Option TaskEvidence) (input : TimedEvent) :
    Option TaskEvidence :=
  match updateEvidenceForTransition input.nowIso existing input.event with
  | .ok next => some next
  | .error _ => existing

theorem Takes.apply {input : TimedEvent}
    (h : Takes input.nowIso existing input.event next workflow) :
    applyWorkflowEvent existing input = some next := by
  rw [applyWorkflowEvent, h.update]

/-- The evidence after a sequence of events on a task that had none. -/
def evidenceAfter (inputs : List TimedEvent) : Option TaskEvidence :=
  inputs.foldl applyWorkflowEvent none

theorem evidenceAfter_snoc (inputs : List TimedEvent) (input : TimedEvent) :
    evidenceAfter (inputs ++ [input]) = applyWorkflowEvent (evidenceAfter inputs) input := by
  simp [evidenceAfter]

theorem applyWorkflowEvent_cases (existing : Option TaskEvidence) (input : TimedEvent) :
    (applyWorkflowEvent existing input = existing
        ∧ ∀ next workflow, ¬ Takes input.nowIso existing input.event next workflow)
      ∨ ∃ next workflow, applyWorkflowEvent existing input = some next
        ∧ Takes input.nowIso existing input.event next workflow := by
  by_cases htakes : ∃ next workflow, Takes input.nowIso existing input.event next workflow
  · obtain ⟨next, workflow, htakes⟩ := htakes
    exact Or.inr ⟨next, workflow, htakes.apply, htakes⟩
  · refine Or.inl ⟨?_, fun next workflow h => htakes ⟨next, workflow, h⟩⟩
    unfold applyWorkflowEvent
    cases hupdate : updateEvidenceForTransition input.nowIso existing input.event with
    | error e => rfl
    | ok next =>
      rcases updateEvidence_cases hupdate with ⟨hsame, -⟩ | ⟨workflow, hnext⟩
      · exact hsame.symm
      · exact absurd ⟨next, workflow, hnext⟩ htakes

end OpencodeSwarm
