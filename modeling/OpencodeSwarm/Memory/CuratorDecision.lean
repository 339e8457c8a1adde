/-
  OpencodeSwarm.Memory.CuratorDecision

  Curator decisions (`applyCuratorDecisionUnlocked` of
  `src/memory/local-jsonl-provider.ts`, `src/memory/curator-decision-helpers.ts`,
  `src/memory/relations.ts`): what a decision on a pending proposal checks, and
  the rows it appends.
-/
import OpencodeSwarm.Memory.JsonlProvider

namespace OpencodeSwarm

open Js JsonLines

/-! ## Decisions -/

structure MemoryPatch where
  scope : Option MemoryScopeRef
  kind : Option MemoryKind
  text : Option JsString
  tags : Option (List JsString)
  stability : Option MemoryStability
  source : Option MemorySource
  expiresAt : Option JsString
  metadata : Option (OrderedMap JsString Json)
  anchors : Option (List MemoryAnchor)
  outcomes : Option (List MemoryOutcome)

/-- `ResolvedCuratorMemoryDecision`, the proposal apart. -/
inductive CuratorAction where
  | add (memory : MemoryRecord)
  | update (targetMemoryId : JsString) (patch : MemoryPatch) (reason : JsString)
  | supersede (oldMemoryId : JsString) (replacement : MemoryRecord) (reason : JsString)
  | merge (relatedMemoryIds : List JsString) (reason : JsString)
  | reject (reason : JsString)
  | noop (reason : JsString)

def canonicalMemoryIds (ids : List JsString) : List JsString := sortStrings ids.eraseDups

/-- `validateDecisionMatchesProposal`, where it does not throw. -/
def decisionMatchesProposal (action : CuratorAction) (proposal : MemoryProposal) : Bool :=
  match action with
  | .add _ => proposal.operation == .add
  | .update targetMemoryId _ _ =>
    proposal.operation == .update && (truthyString proposal.targetMemoryId).all (· = targetMemoryId)
  | .supersede oldMemoryId _ _ =>
    proposal.operation == .supersede && (truthyString proposal.targetMemoryId).all (· = oldMemoryId)
  | .merge relatedMemoryIds _ =>
    proposal.operation == .merge
      && canonicalMemoryIds (proposal.relatedMemoryIds.getD [])
        = canonicalMemoryIds relatedMemoryIds
  | .reject _ | .noop _ => true

section Provider

variable (host : MemoryHost) (codecs : MemoryCodecs)

/-- `CURATOR_PROMOTED_MEMORY_MAX_TEXT_LENGTH`. -/
def curatorPromotedMemoryMaxTextLength : Nat := 500

/-- `validateCuratorPromotableMemory`, where it does not throw. -/
def curatorPromotable (record : MemoryRecord) : Bool :=
  record.stability == .durable && record.kind.isDurable
    && (normalizeMemoryText record.text).length ≤ curatorPromotedMemoryMaxTextLength

/-- What is no word character becomes a dash. -/
def tagUnit (c : CodeUnit) : CodeUnit :=
  if (0x30 ≤ c ∧ c ≤ 0x39) ∨ (0x41 ≤ c ∧ c ≤ 0x5A) ∨ (0x61 ≤ c ∧ c ≤ 0x7A) ∨ c = 0x5F then c
  else 0x2D

/-- Runs of dashes become one dash. -/
def collapseDashes : JsString → JsString
  | [] => []
  | [c] => [c]
  | c :: d :: rest =>
    if c = 0x2D ∧ d = 0x2D then collapseDashes (d :: rest) else c :: collapseDashes (d :: rest)

def normalizeTags (tags : List JsString) : List JsString :=
  let cleaned := tags.map fun tag =>
    let dashed := collapseDashes ((host.toLowerCase tag).map tagUnit)
    let started := if dashed.head? = some 0x2D then dashed.tail else dashed
    if started.getLast? = some 0x2D then started.dropLast else started
  ((cleaned.filter (· ≠ [])).eraseDups).take 32

/-- `{ ...base, ...changes }`. -/
def spreadMetadata (base changes : OrderedMap JsString Json) : OrderedMap JsString Json :=
  changes.foldl (fun metadata binding => OrderedMap.set metadata binding.1 binding.2) base

/-- The patched memory, under the identity of its new content. -/
def applyPatchToMemory (existing : MemoryRecord) (patch : MemoryPatch) (updatedAt : JsString) :
    MemoryRecord :=
  let scope := patch.scope.getD existing.scope
  let kind := patch.kind.getD existing.kind
  let text := (patch.text.map normalizeMemoryText).getD existing.text
  { existing with
    stability := patch.stability.getD existing.stability
    source := patch.source.getD existing.source
    expiresAt := patch.expiresAt.or existing.expiresAt
    anchors := patch.anchors.or existing.anchors
    outcomes := patch.outcomes.or existing.outcomes
    scope := scope
    kind := kind
    text := text
    id := createMemoryId host scope kind text
    tags := (patch.tags.map (normalizeTags host)).getD existing.tags
    updatedAt := updatedAt
    contentHash := computeMemoryContentHash host scope kind text
    metadata := (patch.metadata.map (spreadMetadata existing.metadata)).getD existing.metadata }

/-! ## Merging -/

/-- `MAX_MERGE_PARTICIPANTS`. -/
def maxMergeParticipants : Nat := 8

/-- `MAX_RELATIONS_PER_MEMORY`. -/
def maxRelationsPerMemory : Nat := 32

/-- `buildMemoryRelationIndex`, at one memory: those it was merged with. -/
def relatedMemoryIds (proposals : List MemoryProposal) (id : JsString) : List JsString :=
  (proposals.flatMap fun proposal =>
    if proposal.operation = .merge ∧ proposal.status = .applied
        ∧ id ∈ proposal.relatedMemoryIds.getD [] then
      (proposal.relatedMemoryIds.getD []).filter (· ≠ id)
    else []).eraseDups

/-- `validateMergeParticipants`, where it does not throw. -/
def mergeParticipantsValid (ids : List JsString) (memories : List MemoryRecord)
    (proposals : List MemoryProposal) (now : Int) : Bool :=
  let canonical := canonicalMemoryIds ids
  let participants := canonical.map (getMemory memories)
  2 ≤ canonical.length && canonical.length ≤ maxMergeParticipants
    && participants.all (fun participant => participant.any fun record =>
      record.active && !isExpired host record now)
    && (participants.filterMap id).all (fun record =>
      (participants.filterMap id).head?.all fun first =>
        stableScopeKey record.scope = stableScopeKey first.scope)
    && canonical.all fun id =>
      (relatedMemoryIds proposals id ++ canonical.filter (· ≠ id)).eraseDups.length
        ≤ maxRelationsPerMemory

/-! ## Deciding -/

/-- `activeMemory`, where it does not throw. -/
def activeMemory (memories : List MemoryRecord) (id : JsString) : Option MemoryRecord :=
  (getMemory memories id).filter MemoryRecord.active

/-- The proposal with the decision on it. -/
def markProposalReviewed (proposal : MemoryProposal) (action : CuratorAction)
    (reviewedAt : JsString) : MemoryProposal :=
  { proposal with
    status := match action with
      | .reject _ => .rejected
      | _ => .applied
    reviewedAt := some reviewedAt
    rejectionReason := match action with
      | .reject reason => some reason
      | _ => none }

/-- The tombstone of an update that changes the identity. -/
def updateTombstone (appliedAt reason updatedId : JsString) (existing : MemoryRecord) :
    MemoryRecord :=
  { existing with
    updatedAt := appliedAt
    metadata := OrderedMap.set (OrderedMap.set (OrderedMap.set existing.metadata
      (js "deleted") (.bool true)) (js "deleteReason") (.str reason))
      (js "updateReplacementId") (.str updatedId) }

/-- The superseded row of the old memory. -/
def supersededRow (appliedAt reason replacementId : JsString) (old : MemoryRecord) :
    MemoryRecord :=
  { old with
    updatedAt := appliedAt
    supersededBy := some replacementId
    metadata := OrderedMap.set old.metadata (js "supersedeReason") (.str reason) }

/-- The replacement, which names the memory it supersedes. -/
def supersedingRow (appliedAt : JsString) (replacement old : MemoryRecord) : MemoryRecord :=
  { replacement with
    updatedAt := appliedAt
    supersedes := some (replacement.supersedes.getD [] ++ [old.id]).eraseDups }

/-- The rows a decision appends to the memories, nothing where it throws: `validateDecisionMemory`
    and `validateCuratorPromotableMemory` come before the rows they are about, the checks of a
    later row before any row is appended or, for an update, before the tombstone. -/
def decisionRows (config : MemoryConfig) (appliedAt : JsString) (memories : List MemoryRecord)
    (proposals : List MemoryProposal) (action : CuratorAction) : Option (List MemoryRecord) :=
  let valid := validateMemoryRecordRules host config.rejectDurableSecrets
  match action with
  | .add memory =>
    let memory := { memory with updatedAt := appliedAt }
    if valid memory && curatorPromotable memory then some [memory] else none
  | .update targetMemoryId patch reason =>
    (activeMemory memories targetMemoryId).bind fun existing =>
      let updated := applyPatchToMemory host existing patch appliedAt
      if valid updated && curatorPromotable updated then
        if updated.id ≠ existing.id then
          let tombstone := updateTombstone appliedAt reason updated.id existing
          if valid tombstone then some [tombstone, updated] else none
        else some [updated]
      else none
  | .supersede oldMemoryId replacement reason =>
    (activeMemory memories oldMemoryId).bind fun old =>
      let superseding := supersedingRow appliedAt replacement old
      if valid superseding && curatorPromotable superseding then
        let superseded := supersededRow appliedAt reason superseding.id old
        if valid superseded then some [superseded, superseding] else none
      else none
  | .merge relatedMemoryIds _ =>
    if mergeParticipantsValid host relatedMemoryIds memories proposals
        ((host.parseDate appliedAt).getD 0) then some []
    else none
  | .reject _ | .noop _ => some []

/-- `applyCuratorDecisionUnlocked`, on what it has loaded. -/
def decideOn (config : MemoryConfig) (appliedAt proposalId : JsString) (action : CuratorAction)
    (memories : List MemoryRecord) (proposals : OrderedMap JsString MemoryProposal) :
    MemoryAttempt :=
  let rejected : MemoryAttempt := ⟨[.repairProposals], false⟩
  match OrderedMap.get? proposals proposalId with
  | none => rejected
  | some proposal =>
    if proposal.status ≠ .pending then rejected
    else if !decisionMatchesProposal action proposal then rejected
    else
      match decisionRows host config appliedAt memories (OrderedMap.values proposals) action with
      | none => rejected
      | some decided =>
        ⟨.repairProposals
            :: (decided.map fun record => .appendMemory (stripMaterializedOutcomes record))
          ++ [.appendProposal (markProposalReviewed proposal action appliedAt)], true⟩

/-- `applyCuratorDecision`: the proposals' tail is repaired before anything is checked. -/
def applyCuratorDecision (config : MemoryConfig) (appliedAt proposalId : JsString)
    (action : CuratorAction) (files : MemoryFiles) (memories : List MemoryRecord) :
    MemoryAttempt :=
  decideOn host config appliedAt proposalId action memories
    (loadProposals host codecs config (repairIncompleteJsonlTail files.proposals))

end Provider

end OpencodeSwarm
