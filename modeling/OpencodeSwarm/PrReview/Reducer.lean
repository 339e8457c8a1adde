/-
  OpencodeSwarm.PrReview.Reducer

  The transition authority of a PR review (`src/pr-review/reducer.ts`): a pure
  reducer that returns the next state and the effects the gate executes.  The
  gate writes the state to the store when the effects say so.
-/
import OpencodeSwarm.PrReview.CircuitRun

namespace OpencodeSwarm

open Js

/-! ## State -/

/-- `PR_REVIEW_BASE_DIMENSION_IDS`. -/
inductive BaseDimension where
  | intentArchitecture
  | correctnessState
  | testsFalsifiability
  | securityTrust
  | reliabilityPerformance
  | compatibilityDelivery
  deriving DecidableEq, Repr

def BaseDimension.name : BaseDimension → JsString
  | .intentArchitecture => js "intent-architecture"
  | .correctnessState => js "correctness-state"
  | .testsFalsifiability => js "tests-falsifiability"
  | .securityTrust => js "security-trust"
  | .reliabilityPerformance => js "reliability-performance"
  | .compatibilityDelivery => js "compatibility-delivery"

/-- `PrReviewBaseDispatchLane`. -/
structure BaseDispatchLane where
  laneId : JsString
  workflowLane : BaseDimension
  ownedWorkflowLanes : Option (List BaseDimension)
  deriving DecidableEq, Repr

/-- `PrReviewBaseDispatchRecordLite`. -/
structure BaseDispatchRecord where
  batchId : JsString
  lanes : List BaseDispatchLane
  validatedAt : JsString
  deriving DecidableEq, Repr

/-- `PrReviewDimensionCancellationLite`; `source` is a literal. -/
structure DimensionCancellation where
  reason : JsString
  cancelledAt : JsString
  deriving DecidableEq, Repr

/-- `PrReviewResilienceSlice`. -/
structure ResilienceSlice where
  policy : ResiliencePolicy
  attempts : List Json
  circuit : Option CircuitField

/-- `PrReviewWorkflowState`, the fields the reducer reads or writes. -/
structure PrReviewWorkflowState where
  sessionID : JsString
  workflowInstanceId : Option JsString
  revision : Nat
  prHeadSha : Option JsString
  prReviewBaseDispatches : Option (List BaseDispatchRecord)
  prReviewBaseDispatch : Option BaseDispatchRecord
  prReviewResilience : Option ResilienceSlice
  prReviewDimensionCancellations : Option (OrderedMap BaseDimension DimensionCancellation)

/-! ## Effects -/

inductive SettleStatus where
  | completed
  | error
  | cancelled
  | stale
  deriving DecidableEq, Repr

/-- `PrReviewEffect`; `source` of a diagnostic is a literal. -/
inductive PrReviewEffect where
  | persistState
  | settleDelegation (batchId laneId : JsString) (status : SettleStatus) (replay : Bool)
  | emitDiagnostic (code : JsString) (boundedDetail : Option JsString)
  | blockDispatch (reason : BlockReason)
  deriving DecidableEq, Repr

/-! ## Events -/

/-- `collection_observed.diagnostic`. -/
inductive CollectionDiagnostic where
  | busy
  | retry
  | idleUnknown
  | hostUnavailable
  | probeError
  | waitExpired
  deriving DecidableEq, Repr

def CollectionDiagnostic.name : CollectionDiagnostic → JsString
  | .busy => js "busy"
  | .retry => js "retry"
  | .idleUnknown => js "idle_unknown"
  | .hostUnavailable => js "host_unavailable"
  | .probeError => js "probe_error"
  | .waitExpired => js "wait_expired"

inductive LaneOutcome where
  | clean
  | findings
  | incomplete
  deriving DecidableEq, Repr

/-- `PrReviewCircuitProbeOutcome`. -/
inductive ProbeOutcome where
  | typedSuccess
  | providerFailure (providerClass : JsString)
  | ignored
  | rolledBackAdmission
  deriving DecidableEq, Repr

/-- `PrReviewTerminalCoverageKind`. -/
inductive CoverageKind where
  | complete
  | partialCoverage
  | noCoverage
  deriving DecidableEq, Repr

/-- `PrReviewReportVerdict`. -/
inductive ReportVerdict where
  | approve
  | incomplete
  | requestChanges
  deriving DecidableEq, Repr

def ReportVerdict.name : ReportVerdict → JsString
  | .approve => js "APPROVE"
  | .incomplete => js "INCOMPLETE"
  | .requestChanges => js "REQUEST_CHANGES"

/-- `PrReviewAuthorizationBinding`, the fields the reducer checks. -/
structure AuthorizationBinding where
  sessionID : JsString
  workflowInstanceId : Option JsString
  prHeadSha : JsString
  generation : Nat
  deriving DecidableEq, Repr

/-- `PrReviewResilienceConfig` as an optional policy. -/
structure ResilienceConfig where
  enabled : Bool
  canaryProbeMs : Nat
  statusProbeTimeoutMs : Nat
  correlatedFailureThreshold : Nat
  maxRetryAttemptsAfterInitial : Nat
  circuitOpenDurationMs : Nat
  deriving DecidableEq, Repr

/-- `circuit_advance_requested`. -/
structure CircuitAdvanceRequest where
  nowMs : Int
  laneSignals : List CircuitSignal
  probeObservation : Option ProbeObservation
  admission : Option (JsString × JsString)
  policy : ResiliencePolicy
  deriving DecidableEq, Repr

/-- `PrReviewEvent`; a settled critic receipt is its finding, since every status
    it can have settles.  `unknown` is a discriminant outside the union. -/
inductive PrReviewEvent where
  | baseAdmissionRequested (batchId : JsString) (lanes : List BaseDispatchLane)
      (maxBatches : Nat) (validatedAt : JsString)
  | baseAdmissionRolledBack (batchId : JsString) (batchDelegationRecordsExist : Bool)
  | collectionObserved (diagnostic : CollectionDiagnostic) (boundedDetail : Option JsString)
  | laneStructuredResultSubmitted (batchId laneId : JsString) (generation : Nat)
      (semanticEnvelopeDigest : JsString) (outcome : LaneOutcome)
      (existingReceiptDigest : Option JsString)
  | circuitAdvanceRequested (request : CircuitAdvanceRequest)
  | circuitProbeSettled (outcome : ProbeOutcome) (nowMs : Int) (policy : ResiliencePolicy)
  | resilienceConfigChanged (enabled : Bool) (policy : Option ResilienceConfig) (nowMs : Int)
  | coverageFinalizationRequested (kind : CoverageKind) (liveDimensions : List BaseDimension)
      (requestedVerdict : Option ReportVerdict) (disclosedDegradation : Bool)
  | criticResultRecorded (criticRequiredFindingIds settledFindingIds : List JsString)
  | armedRecoveryRequested (binding : AuthorizationBinding)
      (dimensionsToCancel : List BaseDimension) (nowIso reason : JsString)
  | unknown (type : Option JsString)
  deriving DecidableEq, Repr

/-! ## Results -/

/-- `PrReviewTransitionRejectionCode`. -/
inductive RejectionCode where
  | liveLaneBlocksCoverage
  | partialCoverageCannotApprove
  | noCoverageRequiresIncomplete
  | degradedDisclosureCannotApprove
  | criticRequiredUnfulfilled
  | staleForeignAuthorization
  | staleGenerationResult
  | duplicateConflictingResult
  | baseBatchLimitReached
  | rollbackPreconditionsFailed
  | unknownEvent
  deriving DecidableEq, Repr

/-- `PrReviewReduceResult`; `threw` is the `TypeError` of `'version' in circuit`
    on a primitive. -/
inductive PrReviewReduceResult where
  | applied (state : PrReviewWorkflowState) (effects : List PrReviewEffect)
  | rejected (state : PrReviewWorkflowState) (code : RejectionCode) (detail : JsString)
  | threw

/-- `parts.join(', ')`. -/
def joinCommaSpace : List JsString → JsString
  | [] => []
  | [part] => part
  | part :: rest => part ++ js ", " ++ joinCommaSpace rest

/-! ## The circuit field -/

/-- What `circuitRecordOf` makes of the field: a value with a `version` is taken
    for a record without further check. -/
inductive CircuitView where
  | none
  | record (record : CircuitRecord)
  | unchecked (fields : OrderedMap JsString Json)
  | typeError

def circuitFieldOf (state : PrReviewWorkflowState) : Option CircuitField :=
  state.prReviewResilience.bind (·.circuit)

def circuitRecordOf (state : PrReviewWorkflowState) : CircuitView :=
  match circuitFieldOf state with
  | none | some (.legacy _) | some (.other (.arr _)) => .none
  | some (.v2 record) => .record record
  | some (.other (.obj fields)) =>
    if (OrderedMap.get? fields (js "version")).isSome then .unchecked fields else .none
  | some (.other value) => if value.truthy then .typeError else .none

def withCircuit (state : PrReviewWorkflowState) (circuit : CircuitField) :
    PrReviewWorkflowState :=
  { state with prReviewResilience :=
      state.prReviewResilience.map fun slice => { slice with circuit := some circuit } }

/-- `rollbackPrReviewCircuitProbe` on an unchecked value. -/
def rollbackUnchecked (host : Host) (fields : OrderedMap JsString Json)
    (nowMs openDurationMs : Int) : OrderedMap JsString Json :=
  let reopened := OrderedMap.set (OrderedMap.set fields (js "state") (.str (js "OPEN")))
    (js "openUntil") (.str (host.toISOString (nowMs + openDurationMs)))
  reopened.filter fun field => field.1 != js "probe"

/-- `resetPrReviewResilienceForReEnable` on an unchecked value. -/
def resetUnchecked (host : Host) (fields : OrderedMap JsString Json) (nowMs : Int) :
    CircuitField :=
  match Json.addOne (OrderedMap.get? fields (js "generation")) with
  | .num (.ofNat generation) =>
    .v2 { freshRecord host nowMs true with generation := generation }
  | generation => .other (.obj [(js "version", .num 2), (js "state", .str (js "CLOSED")),
      (js "generation", generation), (js "contributors", .arr []),
      (js "evidenceWaterline", .str (host.toISOString nowMs))])

/-! ## Policy -/

/-- `DEFAULT_PR_REVIEW_RESILIENCE_CONFIG`. -/
def defaultResilienceConfig : ResilienceConfig where
  enabled := false
  canaryProbeMs := 300000
  statusProbeTimeoutMs := 2000
  correlatedFailureThreshold := 2
  maxRetryAttemptsAfterInitial := 2
  circuitOpenDurationMs := 60000

def resolvePrReviewResiliencePolicy (policy : Option ResilienceConfig) : ResiliencePolicy :=
  let config := policy.getD defaultResilienceConfig
  { enabled := config.enabled
    canaryProbeMs := config.canaryProbeMs
    statusProbeTimeoutMs := config.statusProbeTimeoutMs
    correlatedFailureThreshold := config.correlatedFailureThreshold
    maxRetryAttemptsAfterInitial := config.maxRetryAttemptsAfterInitial
    circuitOpenDurationMs := some config.circuitOpenDurationMs }

/-- The duration an advance goes by. -/
def advanceOpenDurationMs (policy : ResiliencePolicy) : Nat :=
  (policy.circuitOpenDurationMs.or
    (resolvePrReviewResiliencePolicy none).circuitOpenDurationMs).getD 60000

/-- The input of the machine. -/
def CircuitAdvanceRequest.input (request : CircuitAdvanceRequest) : AdvanceInput where
  nowMs := request.nowMs
  threshold := request.policy.correlatedFailureThreshold
  openDurationMs := advanceOpenDurationMs request.policy
  admission := request.admission
  laneSignals := request.laneSignals
  probeObservation := request.probeObservation

/-! ## The reducer -/

/-- Why an authorization is not for this state, `none` when it is. -/
def bindingRejection (state : PrReviewWorkflowState) (binding : AuthorizationBinding) :
    Option JsString :=
  if binding.sessionID ≠ state.sessionID then
    some (js "authorization session " ++ binding.sessionID
      ++ js " is foreign to the active workflow session")
  else if binding.workflowInstanceId.isSome ∧ state.workflowInstanceId.isSome
      ∧ binding.workflowInstanceId ≠ state.workflowInstanceId then
    some (js "authorization belongs to a different workflow instance")
  else if truthyString state.prHeadSha ≠ some binding.prHeadSha then
    some (js "authorization head " ++ binding.prHeadSha
      ++ js " does not match the bound head")
  else if binding.generation ≠ state.revision then
    some (js "authorization generation " ++ decimal binding.generation
      ++ js " is stale (active: " ++ decimal state.revision ++ js ")")
  else none

/-- The branch of `circuit_advance_requested`: adoption, decision, effects. -/
def reduceCircuitAdvance (host : Host) (state : PrReviewWorkflowState)
    (request : CircuitAdvanceRequest) : PrReviewWorkflowState × List PrReviewEffect :=
  let adoption := adoptPrReviewCircuit host (circuitFieldOf state) request.nowMs
  let decision := advancePrReviewCircuit host adoption.record? request.input
  let adopted :=
    match adoption with
    | .migrated record => withCircuit state (.v2 record)
    | _ => state
  let next :=
    match decision.record? with
    | some record => withCircuit adopted (.v2 record)
    | none => adopted
  -- an admitted probe is persisted with the admission's own write
  let persist :=
    match decision with
    | .admitted (some _) | .block _ (some _) => [PrReviewEffect.persistState]
    | _ => []
  let blocks :=
    match decision with
    | .block reason _ => [PrReviewEffect.blockDispatch reason]
    | _ => []
  (next, persist ++ blocks)

/-- The coverage verdicts the reducer refuses. -/
def coverageRejection (kind : CoverageKind) (liveDimensions : List BaseDimension)
    (requestedVerdict : Option ReportVerdict) (disclosedDegradation : Bool) :
    Option (RejectionCode × JsString) :=
  if !liveDimensions.isEmpty then
    some (.liveLaneBlocksCoverage, js "coverage finalization blocked by live dimension(s): "
      ++ joinCommaSpace (liveDimensions.map BaseDimension.name))
  else match requestedVerdict with
  | none => none
  | some verdict =>
    if kind = .partialCoverage ∧ verdict = .approve then
      some (.partialCoverageCannotApprove,
        js "a partial review can never emit " ++ verdict.name)
    else if kind = .noCoverage ∧ verdict ≠ .incomplete then
      some (.noCoverageRequiresIncomplete,
        js "a zero-coverage review must report INCOMPLETE, not " ++ verdict.name)
    else if kind = .complete ∧ disclosedDegradation ∧ verdict = .approve then
      some (.degradedDisclosureCannotApprove, js (
        "a disclosed coverage degradation (dead family or dead verdict lane) can never emit "
          ++ "APPROVE; report REQUEST_CHANGES with the disclosed degradation or INCOMPLETE"))
    else none

/-- The re-enabled slice, its circuit reset. -/
def reEnabled (state : PrReviewWorkflowState) (policy : Option ResilienceConfig)
    (circuit : CircuitField) : PrReviewWorkflowState :=
  let slice : ResilienceSlice := ⟨resolvePrReviewResiliencePolicy policy, [], some circuit⟩
  { state with prReviewResilience := some slice }

/-- The slice with its policy marked disabled. -/
def ResilienceSlice.disabled (slice : ResilienceSlice) : ResilienceSlice :=
  { slice with policy := { slice.policy with enabled := false } }

/-- The next state and the effects of an event, or the state as it is and a reason. -/
def reducePrReviewEvent (host : Host) (state : PrReviewWorkflowState) (event : PrReviewEvent) :
    PrReviewReduceResult :=
  match event with
  | .baseAdmissionRequested batchId lanes maxBatches validatedAt =>
    let dispatches := state.prReviewBaseDispatches.getD []
    if maxBatches ≤ dispatches.length then
      .rejected state .baseBatchLimitReached (js "PR_REVIEW base batch limit reached ("
        ++ decimal dispatches.length ++ js " >= " ++ decimal maxBatches ++ js ")")
    else
      let record : BaseDispatchRecord := ⟨batchId, lanes, validatedAt⟩
      .applied { state with
        prReviewBaseDispatches := some (dispatches ++ [record])
        prReviewBaseDispatch := some record } [.persistState]
  | .baseAdmissionRolledBack batchId batchDelegationRecordsExist =>
    let dispatches := state.prReviewBaseDispatches.getD []
    if dispatches.getLast?.map (·.batchId) ≠ some batchId then
      .rejected state .rollbackPreconditionsFailed
        (js "the last admitted base batch is not " ++ batchId)
    else if batchDelegationRecordsExist then
      .rejected state .rollbackPreconditionsFailed
        (js "base batch " ++ batchId ++ js " already has delegation records")
    else
      .applied { state with
        prReviewBaseDispatches := some dispatches.dropLast
        prReviewBaseDispatch := dispatches.dropLast.getLast? } [.persistState]
  | .collectionObserved diagnostic boundedDetail =>
    .applied state [.emitDiagnostic (js "collection_" ++ diagnostic.name) boundedDetail]
  | .laneStructuredResultSubmitted batchId laneId generation semanticEnvelopeDigest outcome
      existingReceiptDigest =>
    if generation ≠ state.revision then
      .rejected state .staleGenerationResult (js "result generation " ++ decimal generation
        ++ js " does not match the active generation " ++ decimal state.revision)
    else match existingReceiptDigest with
    | some existing =>
      if existing = semanticEnvelopeDigest then
        .applied state [.settleDelegation batchId laneId .completed true]
      else .rejected state .duplicateConflictingResult
        (js "lane " ++ laneId ++ js " already carries a different structured receipt")
    | none =>
      if outcome = .incomplete then .applied state []
      else .applied state [.settleDelegation batchId laneId .completed false]
  | .circuitAdvanceRequested request =>
    let result := reduceCircuitAdvance host state request
    .applied result.1 result.2
  | .circuitProbeSettled outcome nowMs policy =>
    let openDurationMs := policy.circuitOpenDurationMs.getD 60000
    match circuitRecordOf state with
    | .typeError => .threw
    | .none => .applied state []
    | .record circuit =>
      if circuit.state = .halfOpen ∧ circuit.probe.isSome ∧ outcome = .rolledBackAdmission then
        .applied (withCircuit state
          (.v2 (rollbackPrReviewCircuitProbe host circuit nowMs openDurationMs))) [.persistState]
      else .applied state []
    | .unchecked fields =>
      if (OrderedMap.get? fields (js "state")).any (fun value =>
            match value with
            | .str text => text == js "HALF_OPEN"
            | _ => false)
          ∧ (OrderedMap.get? fields (js "probe")).any Json.truthy
          ∧ outcome = .rolledBackAdmission then
        .applied (withCircuit state
          (.other (.obj (rollbackUnchecked host fields nowMs openDurationMs)))) [.persistState]
      else .applied state []
  | .resilienceConfigChanged enabled policy nowMs =>
    if enabled then
      match circuitRecordOf state with
      | .typeError => .threw
      | .none =>
        let circuit := resetPrReviewResilienceForReEnable host none nowMs
        .applied (reEnabled state policy (.v2 circuit)) [.persistState]
      | .record previous =>
        let circuit := resetPrReviewResilienceForReEnable host (some previous) nowMs
        .applied (reEnabled state policy (.v2 circuit)) [.persistState]
      | .unchecked fields =>
        .applied (reEnabled state policy (resetUnchecked host fields nowMs)) [.persistState]
    else match state.prReviewResilience with
    | none => .applied state []
    | some slice =>
      if slice.policy.enabled then
        .applied { state with prReviewResilience := some slice.disabled } [.persistState]
      else .applied state []
  | .coverageFinalizationRequested kind liveDimensions requestedVerdict disclosedDegradation =>
    match coverageRejection kind liveDimensions requestedVerdict disclosedDegradation with
    | some (code, detail) => .rejected state code detail
    | none => .applied state []
  | .criticResultRecorded criticRequiredFindingIds settledFindingIds =>
    let unfulfilled := criticRequiredFindingIds.filter fun id => !settledFindingIds.contains id
    if !unfulfilled.isEmpty then
      .rejected state .criticRequiredUnfulfilled
        (js "critic confirmation missing for finding(s): " ++ joinCommaSpace unfulfilled)
    else .applied state []
  | .armedRecoveryRequested binding dimensionsToCancel nowIso reason =>
    match bindingRejection state binding with
    | some detail => .rejected state .staleForeignAuthorization detail
    | none =>
      let cancellations := dimensionsToCancel.foldl
        (fun cancellations dimension =>
          OrderedMap.set cancellations dimension ⟨reason, nowIso⟩)
        (state.prReviewDimensionCancellations.getD [])
      .applied { state with prReviewDimensionCancellations := some cancellations }
        [.persistState]
  | .unknown type => .rejected state .unknownEvent
      (js "unknown PR-review event discriminant: " ++ type.getD (js "(none)"))

end OpencodeSwarm
