/-
  OpencodeSwarm.PrFeedback.EventQueue

  The PR-feedback event queue (`src/background/pr-feedback-event-queue.ts`): a
  primary record in the shape that older versions read, and a sidecar with the
  fields they do not know, tied to it by session and revision.

  A mutation of this version writes the sidecar and then the primary record; one
  of an older version writes the primary record alone.
-/
import Mathlib.Logic.Function.Basic
import OpencodeSwarm.Lib.JsString

namespace OpencodeSwarm

open Js

/-- `MAX_PR_FEEDBACK_MONITOR_EVENTS`. -/
def maxPrFeedbackMonitorEvents : Nat := 20

/-! ## Records -/

/-- `PrFeedbackMonitorEvent`.  `origin` is on no disk and no code reads it: it
    says which mutation put the event into the queue. -/
structure PrFeedbackMonitorEvent where
  type : JsString
  repoFullName : JsString
  prNumber : Nat
  prUrl : JsString
  message : JsString
  dedupToken : JsString
  authorized : Bool
  queuedAt : JsString
  headRefOid : Option JsString
  claimedWorkflowInstanceId : Option JsString
  claimedOwnerPid : Option Nat
  claimedAt : Option JsString
  origin : Nat
  deriving DecidableEq

/-- `PrFeedbackMonitorQueueRecord`, whose `schemaVersion` is 1. -/
structure PrFeedbackQueueRecord where
  revision : Nat
  sessionID : JsString
  events : List PrFeedbackMonitorEvent
  deriving DecidableEq

/-- One event of the sidecar. -/
structure QueueMetadataEvent where
  dedupToken : JsString
  headRefOid : Option JsString
  claimedOwnerPid : Option Nat
  deriving DecidableEq

/-- `QueueMetadataRecordSchema`, whose `schemaVersion` is 1. -/
structure QueueMetadataRecord where
  revision : Nat
  sessionID : JsString
  events : List QueueMetadataEvent
  deriving DecidableEq

/-- What the queue asks of its surroundings: the URL parser of the schema, and
    `canonicalForgePrUrl` under the configured forge. -/
structure QueueHost where
  isUrl : JsString → Bool
  canonicalPrUrl : JsString → Option JsString

/-! ## Shapes -/

namespace PrFeedbackMonitorEvent

/-- The event in the shape of `PrFeedbackMonitorEventDiskSchema`. -/
def onDisk (event : PrFeedbackMonitorEvent) : PrFeedbackMonitorEvent :=
  { event with headRefOid := none, claimedOwnerPid := none }

def isDiskShaped (event : PrFeedbackMonitorEvent) : Bool :=
  event.headRefOid.isNone && event.claimedOwnerPid.isNone

/-- `PrFeedbackMonitorEventSchema`. -/
def wellFormed (host : QueueHost) (event : PrFeedbackMonitorEvent) : Bool :=
  (1 ≤ event.type.length && event.type.length ≤ 128)
    && (1 ≤ event.repoFullName.length && event.repoFullName.length ≤ 512)
    && 1 ≤ event.prNumber
    && (host.isUrl event.prUrl && event.prUrl.length ≤ 2000)
    && (1 ≤ event.message.length && event.message.length ≤ 20000)
    && (1 ≤ event.dedupToken.length && event.dedupToken.length ≤ 512)
    && 1 ≤ event.queuedAt.length
    && event.headRefOid.all (fun head => 1 ≤ head.length && head.length ≤ 256)
    && event.claimedWorkflowInstanceId.all (fun id => 1 ≤ id.length && id.length ≤ 128)
    && event.claimedOwnerPid.all (1 ≤ ·)
    && event.claimedAt.all (fun at_ => 1 ≤ at_.length)

end PrFeedbackMonitorEvent

namespace PrFeedbackQueueRecord

def onDisk (record : PrFeedbackQueueRecord) : PrFeedbackQueueRecord :=
  { record with events := record.events.map PrFeedbackMonitorEvent.onDisk }

def isDiskShaped (record : PrFeedbackQueueRecord) : Bool :=
  record.events.all PrFeedbackMonitorEvent.isDiskShaped

/-- `QueueRecordSchema`; of a disk-shaped record, `QueueRecordDiskSchema`. -/
def wellFormed (host : QueueHost) (record : PrFeedbackQueueRecord) : Bool :=
  1 ≤ record.sessionID.length
    && record.events.all (PrFeedbackMonitorEvent.wellFormed host)
    && record.events.length ≤ maxPrFeedbackMonitorEvents

/-- The sidecar that `writeQueueMetadata` writes. -/
def metadata (record : PrFeedbackQueueRecord) : QueueMetadataRecord where
  revision := record.revision
  sessionID := record.sessionID
  events := (record.events.filter fun event => !event.isDiskShaped).map fun event =>
    { dedupToken := event.dedupToken
      headRefOid := event.headRefOid
      claimedOwnerPid := event.claimedOwnerPid }

end PrFeedbackQueueRecord

/-! ## Reading -/

/-- What reading throws. -/
inductive QueueError where
  /-- `BLOCKED: PR feedback monitor queue for session "…" is invalid`. -/
  | invalid
  deriving DecidableEq

/-- The fields the sidecar adds to an event. -/
def QueueMetadataEvent.extend (extended : QueueMetadataEvent) (event : PrFeedbackMonitorEvent) :
    PrFeedbackMonitorEvent :=
  { event with
    headRefOid := extended.headRefOid.or event.headRefOid
    claimedOwnerPid := extended.claimedOwnerPid.or event.claimedOwnerPid }

/-- `metadataByToken.get(token)`: the last event of the sidecar with the token. -/
def QueueMetadataRecord.byToken (metadata : QueueMetadataRecord) (token : JsString) :
    Option QueueMetadataEvent :=
  metadata.events.reverse.find? fun extended => extended.dedupToken == token

/-- The extended fields of the sidecar, where it is of the same revision. -/
def mergeQueueMetadata (sidecar : Option QueueMetadataRecord) (record : PrFeedbackQueueRecord) :
    PrFeedbackQueueRecord :=
  match sidecar with
  | none => record
  | some metadata =>
    if metadata.revision ≠ record.revision ∨ metadata.sessionID ≠ record.sessionID then record
    else
      { record with
        events := record.events.map fun event =>
          match metadata.byToken event.dedupToken with
          | none => event
          | some extended => extended.extend event }

/-- `readPrFeedbackMonitorQueueFromDisk`; a primary record with extended fields is
    one generation old and read as it is. -/
def readQueueFromDisk (host : QueueHost) (primary : Option PrFeedbackQueueRecord)
    (sidecar : Option QueueMetadataRecord) : Except QueueError (Option PrFeedbackQueueRecord) :=
  match primary with
  | none => .ok none
  | some record =>
    if !record.wellFormed host then .error .invalid
    else if record.isDiskShaped then .ok (some (mergeQueueMetadata sidecar record))
    else .ok (some record)

/-! ## Mutations of this version -/

/-- The argument of `enqueuePrFeedbackMonitorEvent`: an event without a claim. -/
structure PrFeedbackMonitorInput where
  type : JsString
  repoFullName : JsString
  prNumber : Nat
  prUrl : JsString
  message : JsString
  dedupToken : JsString
  authorized : Bool
  queuedAt : JsString
  headRefOid : Option JsString

/-- An input as an event that nobody has claimed. -/
def PrFeedbackMonitorInput.event (input : PrFeedbackMonitorInput) (origin : Nat) :
    PrFeedbackMonitorEvent where
  type := input.type
  repoFullName := input.repoFullName
  prNumber := input.prNumber
  prUrl := input.prUrl
  message := input.message
  dedupToken := input.dedupToken
  authorized := input.authorized
  queuedAt := input.queuedAt
  headRefOid := input.headRefOid
  claimedWorkflowInstanceId := none
  claimedOwnerPid := none
  claimedAt := none
  origin := origin

/-- The arguments of `claimPrFeedbackMonitorEvents`, with the clock and the
    liveness probe it uses. -/
structure QueueClaim where
  workflowInstanceId : JsString
  prUrl : JsString
  dedupTokens : Option (List JsString)
  ownerPid : Nat
  claimedAt : JsString
  isProcessAlive : Nat → Bool

inductive QueueMutation where
  | enqueue (input : PrFeedbackMonitorInput)
  | claim (request : QueueClaim)
  | clear (dedupTokens : List JsString)
  | release (dedupToken workflowInstanceId : JsString) (ownerPid : Nat)

section Mutations

variable (host : QueueHost)

/-- `QueueRecordSchema.parse` of the next record; `none` when it throws. -/
def nextQueueRecord (current : PrFeedbackQueueRecord) (events : List PrFeedbackMonitorEvent) :
    Option PrFeedbackQueueRecord :=
  let next := { current with revision := current.revision + 1, events := events }
  if next.wellFormed host then some next else none

/-- `enqueuePrFeedbackMonitorEvent`. -/
def enqueueEvent (sessionID : JsString) (origin : Nat) (input : PrFeedbackMonitorInput)
    (current : Option PrFeedbackQueueRecord) : Option PrFeedbackQueueRecord :=
  let event := input.event origin
  if !event.wellFormed host || (host.canonicalPrUrl event.prUrl).isNone then none
  else
    let record := current.getD { revision := 0, sessionID := sessionID, events := [] }
    let deduped := record.events.filter fun existing => existing.dedupToken ≠ event.dedupToken
    let events := deduped ++ [event]
    nextQueueRecord host record (events.drop (events.length - maxPrFeedbackMonitorEvents))

def canReclaimDeadClaim (isProcessAlive : Nat → Bool) (event : PrFeedbackMonitorEvent) : Bool :=
  match truthyString (event.claimedWorkflowInstanceId.map trim), event.claimedOwnerPid with
  | some _, some ownerPid => 0 < ownerPid && !isProcessAlive ownerPid
  | _, _ => false

/-- The dedup tokens a claim is limited to. -/
def QueueClaim.selectedTokens (claim : QueueClaim) : Option (List JsString) :=
  claim.dedupTokens.map fun tokens => (tokens.map trim).filter (· ≠ [])

/-- The claim asks for this event and may have it. -/
def QueueClaim.takes (claim : QueueClaim) (event : PrFeedbackMonitorEvent) : Bool :=
  let hasClaimMetadata := event.claimedWorkflowInstanceId.isSome || event.claimedOwnerPid.isSome
    || event.claimedAt.isSome
  host.canonicalPrUrl event.prUrl == host.canonicalPrUrl claim.prUrl
    && claim.selectedTokens.all (fun tokens => event.dedupToken ∈ tokens)
    && !(event.claimedWorkflowInstanceId == some (trim claim.workflowInstanceId)
      && event.claimedOwnerPid == some claim.ownerPid)
    && (!hasClaimMetadata || canReclaimDeadClaim claim.isProcessAlive event)

def QueueClaim.event (claim : QueueClaim) (event : PrFeedbackMonitorEvent) :
    PrFeedbackMonitorEvent :=
  if claim.takes host event then
    { event with
      claimedWorkflowInstanceId := some (trim claim.workflowInstanceId)
      claimedOwnerPid := some claim.ownerPid
      claimedAt := some claim.claimedAt }
  else event

/-- `claimPrFeedbackMonitorEvents`, as far as it writes. -/
def claimEvents (claim : QueueClaim) (current : Option PrFeedbackQueueRecord) :
    Option PrFeedbackQueueRecord :=
  if trim claim.workflowInstanceId = [] ∨ claim.ownerPid = 0
      ∨ host.canonicalPrUrl claim.prUrl = none ∨ claim.selectedTokens = some [] then none
  else
    match current with
    | none => none
    | some record =>
      if record.events.any (claim.takes host) then
        nextQueueRecord host record (record.events.map (claim.event host))
      else none

/-- `clearPrFeedbackMonitorEvents`. -/
def clearEvents (dedupTokens : List JsString) (current : Option PrFeedbackQueueRecord) :
    Option PrFeedbackQueueRecord :=
  let selected := (dedupTokens.map trim).filter (· ≠ [])
  match current with
  | none => none
  | some record =>
    if record.events.any fun event => event.dedupToken ∈ selected then
      nextQueueRecord host record (record.events.filter fun event => event.dedupToken ∉ selected)
    else none

/-- The claim that `releasePrFeedbackMonitorEventClaim` names. -/
def isClaimedBy (dedupToken workflowInstanceId : JsString) (ownerPid : Nat)
    (event : PrFeedbackMonitorEvent) : Bool :=
  event.dedupToken == dedupToken && event.claimedWorkflowInstanceId == some workflowInstanceId
    && event.claimedOwnerPid == some ownerPid

def unclaimed (event : PrFeedbackMonitorEvent) : PrFeedbackMonitorEvent :=
  { event with claimedWorkflowInstanceId := none, claimedOwnerPid := none, claimedAt := none }

/-- `releasePrFeedbackMonitorEventClaim`. -/
def releaseClaim (dedupToken workflowInstanceId : JsString) (ownerPid : Nat)
    (current : Option PrFeedbackQueueRecord) : Option PrFeedbackQueueRecord :=
  let token := trim dedupToken
  let instanceId := trim workflowInstanceId
  if token = [] ∨ instanceId = [] ∨ ownerPid = 0 then none
  else
    match current with
    | none => none
    | some record =>
      if record.events.any (isClaimedBy token instanceId ownerPid) then
        nextQueueRecord host record (record.events.map fun event =>
          if isClaimedBy token instanceId ownerPid event then unclaimed event else event)
      else none

/-- The record a mutation writes, from the record it reads; `none` when it writes
    nothing. -/
def QueueMutation.next (sessionID : JsString) (origin : Nat) (mutation : QueueMutation)
    (current : Option PrFeedbackQueueRecord) : Option PrFeedbackQueueRecord :=
  match mutation with
  | .enqueue input => enqueueEvent host sessionID origin input current
  | .claim request => claimEvents host request current
  | .clear dedupTokens => clearEvents host dedupTokens current
  | .release dedupToken workflowInstanceId ownerPid =>
      releaseClaim host dedupToken workflowInstanceId ownerPid current

end Mutations

end OpencodeSwarm
