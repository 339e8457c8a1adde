/-
  OpencodeSwarm.Background.DelegationRecord

  The record of a background delegation (`src/background/pending-delegations.ts`):
  its statuses, the result and the typed terminal event it may carry, when it is
  live, and the summary that a compaction keeps of a record that is not.

  The texts that a summary retains of a review collection receipt come out of the
  result body; `CollectionReceipts` stands for their codec.
-/
import OpencodeSwarm.Background.StageBFreshness

namespace OpencodeSwarm

open Js

/-! ## Results and terminal events -/

inductive BackgroundDelegationStatus where
  | pending
  | running
  | ingesting
  | ingestionError
  | rejected
  | completed
  | error
  | cancelled
  | stale
  | consumed
  deriving DecidableEq

/-- `BackgroundTerminalResult['status']`. -/
inductive TypedTerminalStatus where
  | completed
  | error
  | cancelled
  | rejected
  | stale
  deriving DecidableEq

/-- `BackgroundDelegationPersistedWorkflowLaneFailureClass`. -/
inductive WorkflowLaneFailureClass where
  | contract
  | resource
  | liveness
  | operatorCancelled
  | deadline
  | verdictContract
  deriving DecidableEq

/-- The fields of a review receipt that its publication compares; `content` is the
    text of the others. -/
structure PrReviewResultReceipt where
  mode : JsString
  workflowInstanceId : JsString
  workflowRevision : Nat
  laneId : JsString
  workflowLane : JsString
  ownedWorkflowLanes : List JsString
  baseSha : JsString
  headSha : JsString
  generation : Nat
  semanticEnvelopeDigest : JsString
  /-- `envelope.findings[].id` -/
  findingIds : List JsString
  content : JsString
  deriving DecidableEq

structure BackgroundDelegationResult where
  text : Option JsString
  error : Option JsString
  chars : Int
  digest : JsString
  outputPreviewChars : Option Int
  outputDegraded : Option Bool
  prReviewResultReceipt : Option PrReviewResultReceipt
  workflowLaneFailureClass : Option WorkflowLaneFailureClass
  deriving DecidableEq

structure BackgroundTerminalResult where
  eventId : JsString
  status : TypedTerminalStatus
  recordedAt : Int
  result : BackgroundDelegationResult
  deriving DecidableEq

/-! ## Records -/

inductive BackgroundCoderSettlementState where
  | pending
  | settling
  | settled
  | preserved
  deriving DecidableEq

inductive SettlementOutcomeKind where
  | sharedRoot
  | standardWorktree
  deriving DecidableEq

inductive SettlementOutcomeResult where
  | ready
  | merged
  | unchanged
  | partialMerge
  | failed
  deriving DecidableEq

structure BackgroundCoderSettlement where
  state : BackgroundCoderSettlementState
  outcome : Option (SettlementOutcomeKind × SettlementOutcomeResult)
  deriving DecidableEq

inductive AdvisoryState where
  | pending
  | delivered
  deriving DecidableEq

deriving instance DecidableEq for WorkspaceSnapshot

/-- `BackgroundDelegationRecord`.  The prompt, the change context, the worktree
    descriptor and the legacy settlement transfer are present or absent texts. -/
structure BackgroundDelegationRecord where
  schemaVersion : Nat
  correlationId : JsString
  jobId : Option JsString
  subagentSessionId : JsString
  parentSessionId : JsString
  callID : JsString
  normalizedAgent : JsString
  swarmPrefixedAgent : JsString
  planTaskId : Option JsString
  evidenceTaskId : Option JsString
  status : BackgroundDelegationStatus
  createdAt : Int
  updatedAt : Int
  batchId : Option JsString
  laneId : Option JsString
  mode : Option JsString
  workflowLane : Option JsString
  ownedWorkflowLanes : Option (List JsString)
  promptHash : Option JsString
  workspace : Option WorkspaceSnapshot
  taskChangeContext : Option JsString
  workflowGeneration : Option Nat
  worktree : Option JsString
  coderReservationId : Option JsString
  prompt : Option JsString
  generation : Option Nat
  terminalResult : Option BackgroundTerminalResult
  coderSettlement : Option BackgroundCoderSettlement
  advisoryInbox : Option AdvisoryState
  legacyCoderSettlementTransfer : Option JsString
  result : Option BackgroundDelegationResult
  completedAt : Option Int
  deriving DecidableEq

/-- `isTerminal`. -/
def isTerminalDelegationStatus (status : BackgroundDelegationStatus) : Bool :=
  status = .completed || status = .error || status = .cancelled || status = .stale
    || status = .consumed

/-! ## Liveness -/

def isUnsettledWorktreeOwner (record : BackgroundDelegationRecord) : Bool :=
  record.worktree.isSome
    && !(match record.coderSettlement with
      | some settlement =>
        settlement.state = .settled
          && (settlement.outcome = some (.standardWorktree, .merged)
            || settlement.outcome = some (.standardWorktree, .unchanged))
      | none => false)

def isActiveCoderOwner (record : BackgroundDelegationRecord) : Bool :=
  if record.normalizedAgent ≠ js "coder" ∨ record.status = .consumed then false
  else if record.status = .pending ∨ record.status = .running ∨ record.status = .completed
      ∨ record.status = .ingestionError then true
  else if record.coderSettlement.map (·.state) = some .preserved then true
  else record.worktree.isSome

/-- A record that stays whole in a checkpoint. -/
def isCheckpointLiveRecord (record : BackgroundDelegationRecord) : Bool :=
  if !isTerminalDelegationStatus record.status then true
  else if record.advisoryInbox = some .pending then true
  else if record.legacyCoderSettlementTransfer.isSome then true
  else match record.coderSettlement with
    | some settlement =>
      if settlement.state ≠ .settled then true
      else if isUnsettledWorktreeOwner record then true
      else isActiveCoderOwner record
    | none => isActiveCoderOwner record

/-! ## Summaries -/

/-- What `parsePrReviewCollectionReceiptFooter` and its shed marker find in a result
    body, as the text that replaces it: the footer again, the marker again, and the
    marker of a footer. -/
structure CollectionReceipts where
  footer : BackgroundDelegationRecord → BackgroundDelegationResult → Option JsString
  shedMarker : BackgroundDelegationRecord → BackgroundDelegationResult → Option JsString
  markerOfFooter : BackgroundDelegationRecord → BackgroundDelegationResult → Option JsString

/-- The body replaced by a retained text. -/
def BackgroundDelegationResult.withText (result : BackgroundDelegationResult) (text : JsString) :
    BackgroundDelegationResult :=
  { result with text := some text, error := none, outputPreviewChars := some text.length }

def stripResultBody (receipts : CollectionReceipts) (record : BackgroundDelegationRecord)
    (result : BackgroundDelegationResult) : BackgroundDelegationResult :=
  match (receipts.footer record result).or (receipts.shedMarker record result) with
  | some receiptText => result.withText receiptText
  | none => { result with text := none, error := none }

def dropResultBody (result : BackgroundDelegationResult) : BackgroundDelegationResult :=
  { result with text := none, error := none, outputPreviewChars := none }

def dropTerminalResultBody (result : BackgroundDelegationResult) : BackgroundDelegationResult :=
  { dropResultBody result with prReviewResultReceipt := none }

/-- The terminal event without its bodies. -/
def BackgroundTerminalResult.dropBody (terminal : BackgroundTerminalResult) :
    BackgroundTerminalResult :=
  { terminal with result := dropTerminalResultBody terminal.result }

/-- `buildClosedSummary`, where `schema` is what `RecordSchema` accepts. -/
def buildClosedSummary (receipts : CollectionReceipts)
    (schema : BackgroundDelegationRecord → Bool) (record : BackgroundDelegationRecord) :
    Option BackgroundDelegationRecord :=
  let summary := { record with
    prompt := none
    taskChangeContext := none
    result := record.result.map (stripResultBody receipts record)
    terminalResult := record.terminalResult.map BackgroundTerminalResult.dropBody }
  if schema summary then some summary else none

/-- The retained receipt text of a summary gives way to its shed marker. -/
def shedReceiptText (receipts : CollectionReceipts) (record : BackgroundDelegationRecord)
    (result : BackgroundDelegationResult) : BackgroundDelegationResult :=
  match receipts.markerOfFooter record result with
  | some marker => result.withText marker
  | none =>
    match receipts.shedMarker record result with
    | some marker => result.withText marker
    | none => dropResultBody result

def dropRetainedPrReviewReceipt (receipts : CollectionReceipts)
    (record : BackgroundDelegationRecord) : BackgroundDelegationRecord :=
  { record with
    result := record.result.map (shedReceiptText receipts record)
    terminalResult := record.terminalResult.map BackgroundTerminalResult.dropBody }

/-- What a compaction keeps of a record that is not live. -/
def closedEntry (receipts : CollectionReceipts) (schema : BackgroundDelegationRecord → Bool)
    (record : BackgroundDelegationRecord) : BackgroundDelegationRecord :=
  (buildClosedSummary receipts schema record).getD record

/-- One record is another, or what compactions left of it. -/
inductive IsSummaryOf (receipts : CollectionReceipts) (schema : BackgroundDelegationRecord → Bool)
    (record : BackgroundDelegationRecord) : BackgroundDelegationRecord → Prop where
  | closed : IsSummaryOf receipts schema record (closedEntry receipts schema record)
  | again {summary : BackgroundDelegationRecord} :
      IsSummaryOf receipts schema record summary →
        IsSummaryOf receipts schema record (closedEntry receipts schema summary)
  | shed {summary : BackgroundDelegationRecord} :
      IsSummaryOf receipts schema record summary →
        IsSummaryOf receipts schema record (dropRetainedPrReviewReceipt receipts summary)

section Summaries

variable {receipts : CollectionReceipts} {schema : BackgroundDelegationRecord → Bool}
  {record summary : BackgroundDelegationRecord}

/-- Everything but the bodies. -/
structure SameSkeleton (summary record : BackgroundDelegationRecord) : Prop where
  correlationId : summary.correlationId = record.correlationId
  updatedAt : summary.updatedAt = record.updatedAt
  live : isCheckpointLiveRecord summary = isCheckpointLiveRecord record

theorem SameSkeleton.trans {other : BackgroundDelegationRecord}
    (h : SameSkeleton summary record) (h' : SameSkeleton record other) :
    SameSkeleton summary other :=
  ⟨h.correlationId.trans h'.correlationId, h.updatedAt.trans h'.updatedAt, h.live.trans h'.live⟩

theorem sameSkeleton_closedEntry : SameSkeleton (closedEntry receipts schema record) record := by
  dsimp only [closedEntry, buildClosedSummary]
  split
  · exact ⟨rfl, rfl, rfl⟩
  · exact ⟨rfl, rfl, rfl⟩

theorem sameSkeleton_shed : SameSkeleton (dropRetainedPrReviewReceipt receipts record) record :=
  ⟨rfl, rfl, rfl⟩

theorem IsSummaryOf.sameSkeleton (h : IsSummaryOf receipts schema record summary) :
    SameSkeleton summary record := by
  induction h with
  | closed => exact sameSkeleton_closedEntry
  | again _ ih => exact sameSkeleton_closedEntry.trans ih
  | shed _ ih => exact sameSkeleton_shed.trans ih

end Summaries

end OpencodeSwarm
