/-
  OpencodeSwarm.Memory.JsonlProvider

  The JSONL memory store (`src/memory/local-jsonl-provider.ts`): three files of
  rows, the newest row of a memory owning its identity, and the operations as the
  lists of durable writes that they make under the store lock.
-/
import OpencodeSwarm.Lib.JsonLines
import OpencodeSwarm.Memory.OutcomeEvents

namespace OpencodeSwarm

open Js JsonLines

/-! ## Rows and files -/

/-- A row of `memories.jsonl`: a record, or another value with the `id` it has. -/
inductive MemoryRow where
  | record (record : MemoryRecord)
  | other (id : Option JsString)

/-- The candidate identity of a row, empty where it has none. -/
def MemoryRow.candidateId : MemoryRow → JsString
  | record stored => stored.id
  | other id => id.getD []

inductive ProposalOperation where
  | add
  | update
  | delete
  | ignore
  | merge
  | supersede
  deriving DecidableEq

inductive ProposalStatus where
  | pending
  | approved
  | rejected
  | superseded
  | applied
  deriving DecidableEq

structure MemoryProposal where
  id : JsString
  operation : ProposalOperation
  proposedRecord : Option MemoryRecord
  targetMemoryId : Option JsString
  relatedMemoryIds : Option (List JsString)
  status : ProposalStatus
  reviewedAt : Option JsString
  rejectionReason : Option JsString

/-- The files of a store, empty where they are missing. -/
structure MemoryFiles where
  memories : List UInt8
  proposals : List UInt8
  events : List UInt8

/-- How rows are written and read.  A row that does not pass its schema is `none`. -/
structure MemoryCodecs where
  memories : Codec MemoryRecord MemoryRow
  proposals : Codec MemoryProposal (Option MemoryProposal)
  events : Codec MemoryOutcomeEvent (Option MemoryOutcomeEvent)
  memories_toValue : ∀ record, memories.toValue record = .record record
  proposals_toValue : ∀ proposal, proposals.toValue proposal = some proposal
  events_toValue : ∀ event, events.toValue event = some event

/-- `MemoryConfig`, as far as the provider goes by it. -/
structure MemoryConfig where
  hardDelete : Bool
  rejectDurableSecrets : Bool

/-! ## Loading -/

section Newest

variable {α β : Type*}

/-- The loop of the loaders, over the newest value first: the first value of an identity owns
    it, whether it passes the check or not. -/
def newestFirst (idOf : α → JsString) (check : α → Option β) : List α → List JsString → List β
  | [], _ => []
  | value :: older, seen =>
    if idOf value ∈ seen then newestFirst idOf check older seen
    else
      (check value).toList ++ newestFirst idOf check older
        (if idOf value = [] then seen else idOf value :: seen)

/-- What the loaders keep, the oldest first. -/
def newestPassing (idOf : α → JsString) (check : α → Option β) (values : List α) : List β :=
  (newestFirst idOf check values.reverse []).reverse

end Newest

section Provider

variable (host : MemoryHost) (codecs : MemoryCodecs)

/-- A row, checked. -/
def checkRow (config : MemoryConfig) : MemoryRow → Option MemoryRecord
  | .record record =>
    if validateMemoryRecordRules host config.rejectDurableSecrets record then some record else none
  | .other _ => none

def validateLoadedMemories (config : MemoryConfig) (values : List MemoryRow) :
    List MemoryRecord :=
  newestPassing MemoryRow.candidateId (checkRow host config) values

/-- A record with its events, checked. -/
def checkMaterialized (config : MemoryConfig) (events : List MemoryOutcomeEvent)
    (record : MemoryRecord) : Option MemoryRecord :=
  let materialized := materializeOutcomeRecord record events
  if validateMemoryRecordRules host config.rejectDurableSecrets materialized then some materialized
  else none

def validateMaterializedMemories (config : MemoryConfig) (records : List MemoryRecord)
    (events : List MemoryOutcomeEvent) : List MemoryRecord :=
  newestPassing MemoryRecord.id (checkMaterialized host config events) records

/-- The loop of `readOutcomeEventsSync`: nothing where it throws. -/
def collectEvents : List MemoryOutcomeEvent → List MemoryOutcomeEvent →
    Option (List MemoryOutcomeEvent)
  | events, [] => some events
  | events, event :: rest =>
    let prior := findEvent events event.id
    if eventIdentityCompatible prior event then
      collectEvents (if prior.isSome then events else events ++ [event]) rest
    else none

/-- `readOutcomeEventsSync`: terminated lines only. -/
def readOutcomeEventsSync (files : MemoryFiles) : Option (List MemoryOutcomeEvent) :=
  collectEvents [] ((rows codecs.events files.events).filterMap fun row =>
    row.bind validateOutcomeEvent)

/-- `refreshMemoriesUnlocked`: the memories by identity, and the events. -/
def refreshMemoriesUnlocked (config : MemoryConfig) (files : MemoryFiles) :
    Option (List MemoryRecord × List MemoryOutcomeEvent) :=
  (readOutcomeEventsSync codecs files).map fun events =>
    (validateMaterializedMemories host config
      (validateLoadedMemories host config (readJsonl codecs.memories files.memories)) events,
      events)

/-- `this.memories.get(id)`. -/
def getMemory (memories : List MemoryRecord) (id : JsString) : Option MemoryRecord :=
  memories.find? fun record => record.id = id

def validateLoadedProposals (config : MemoryConfig) (values : List (Option MemoryProposal)) :
    List MemoryProposal :=
  (values.filterMap id).filter fun proposal =>
    proposal.proposedRecord.all (validateMemoryRecordRules host config.rejectDurableSecrets)

/-- `refreshProposalsUnlocked`, behind the repair of its tail: later rows of an identity win. -/
def loadProposals (config : MemoryConfig) (proposals : List UInt8) :
    OrderedMap JsString MemoryProposal :=
  (validateLoadedProposals host config (readJsonl codecs.proposals proposals)).foldl
    (fun loaded proposal => OrderedMap.set loaded proposal.id proposal) []

/-! ## Durable writes -/

/-- One durable write.  The appends truncate an unterminated tail first, the replacements are
    renames of complete files. -/
inductive MemoryWrite where
  | repairProposals
  | appendMemory (record : MemoryRecord)
  | appendProposal (proposal : MemoryProposal)
  | appendEvent (event : MemoryOutcomeEvent)
  | replaceEvents (events : List MemoryOutcomeEvent)
  | replaceMemories (memories : List MemoryRecord)

/-- A write, done. -/
def MemoryWrite.apply (files : MemoryFiles) : MemoryWrite → MemoryFiles
  | repairProposals => { files with proposals := repairIncompleteJsonlTail files.proposals }
  | appendMemory record =>
    { files with
      memories := appendJsonl codecs.memories (repairIncompleteJsonlTail files.memories) record }
  | appendProposal proposal =>
    { files with
      proposals :=
        appendJsonl codecs.proposals (repairIncompleteJsonlTail files.proposals) proposal }
  | appendEvent event =>
    { files with
      events := appendJsonl codecs.events (repairIncompleteJsonlTail files.events) event }
  | replaceEvents events => { files with events := jsonlContent codecs.events events }
  | replaceMemories memories => { files with memories := jsonlContent codecs.memories memories }

/-- A write, crashed within: an append leaves the truncated file with some of its bytes. -/
def MemoryWrite.crash (files : MemoryFiles) (cut : Nat) : MemoryWrite → MemoryFiles
  | repairProposals => files
  | appendMemory record =>
    { files with
      memories :=
        appendJsonlCut codecs.memories (repairIncompleteJsonlTail files.memories) record cut }
  | appendProposal proposal =>
    { files with
      proposals :=
        appendJsonlCut codecs.proposals (repairIncompleteJsonlTail files.proposals) proposal cut }
  | appendEvent event =>
    { files with
      events := appendJsonlCut codecs.events (repairIncompleteJsonlTail files.events) event cut }
  | replaceEvents _ => files
  | replaceMemories _ => files

/-- All writes, one after the other. -/
def applyWrites (files : MemoryFiles) (writes : List MemoryWrite) : MemoryFiles :=
  writes.foldl (MemoryWrite.apply codecs) files

/-- What a crash may leave: the writes before it done, and the next one not begun or in part. -/
def crashStates (files : MemoryFiles) (writes : List MemoryWrite) (crashed : MemoryFiles) : Prop :=
  ∃ done, done <+: writes ∧ (crashed = applyWrites codecs files done
    ∨ ∃ next cut, done ++ [next] <+: writes
      ∧ crashed = next.crash codecs (applyWrites codecs files done) cut)

/-- The writes of a call, and whether it returns or throws behind them. -/
structure MemoryAttempt where
  writes : List MemoryWrite
  returned : Bool

/-- A call that throws before it writes. -/
def MemoryAttempt.rejected : MemoryAttempt := ⟨[], false⟩

/-! ## Records and outcomes -/

/-- The loop over the imported events: those that are new. -/
def preflightEvents (config : MemoryConfig) (memory : MemoryRecord)
    (events : List MemoryOutcomeEvent) :
    List MemoryOutcomeEvent → List MemoryOutcomeEvent → Option (List MemoryOutcomeEvent)
  | added, [] => some added
  | added, event :: rest =>
    if (validateOutcomeEventForMemory host config.rejectDurableSecrets event memory).isNone then
      none
    else
      let prior := findEvent (events ++ added) event.id
      if eventIdentityCompatible prior event then
        preflightEvents config memory events
          (if prior.isSome then added else added ++ [event]) rest
      else none

/-- The end of `upsert`: the new events, then the base row if it passes with them. -/
def upsertBaseRow (config : MemoryConfig) (events added : List MemoryOutcomeEvent)
    (parsed : MemoryRecord) : MemoryAttempt :=
  let base := stripMaterializedOutcomes parsed
  if validateMemoryRecordRules host config.rejectDurableSecrets
      (materializeOutcomeRecord base (events ++ added)) then
    ⟨added.map .appendEvent ++ [.appendMemory (stripMaterializedOutcomes base)], true⟩
  else ⟨added.map .appendEvent, false⟩

/-- What `upsert` is going to store. -/
def upsertCandidate (existing : Option MemoryRecord) (record : MemoryRecord) : MemoryRecord :=
  let key := js "outcomeGeneration"
  let generation := (existing.bind fun existing => OrderedMap.get? existing.metadata key).or
    (OrderedMap.get? record.metadata key)
  { record with
    createdAt := (existing.map MemoryRecord.createdAt).getD record.createdAt
    metadata :=
      match generation with
      | some generation => OrderedMap.set record.metadata key generation
      | none => record.metadata }

/-- `upsert`, with the identifier drawn for a new generation. -/
def upsert (config : MemoryConfig) (fresh : JsString) (record : MemoryRecord)
    (memories : List MemoryRecord) (events : List MemoryOutcomeEvent) : MemoryAttempt :=
  let existing := getMemory memories record.id
  if existing.any MemoryRecord.deleted then .rejected
  else
    let candidate := upsertCandidate existing record
    if !validateMemoryRecordRules host config.rejectDurableSecrets candidate then .rejected
    else
      let parsed :=
        if candidate.outcomeList ≠ [] ∨ candidate.outcomeGeneration?.isSome then
          ensureOutcomeGeneration fresh candidate
        else candidate
      match parsed.outcomeGeneration? with
      | none => upsertBaseRow host config events [] parsed
      | some generation =>
        match preflightEvents host config parsed events []
            (importMaterializedOutcomeEvents host parsed generation events) with
        | none => .rejected
        | some added =>
          if 1000 < ((events ++ added).filter fun event =>
              event.memoryId = parsed.id ∧ event.generation = generation).length then .rejected
          else upsertBaseRow host config events added parsed

/-- The rows of a new outcome, none where a check refuses it. -/
def appendOutcome (config : MemoryConfig) (fresh memoryId eventId : JsString)
    (outcome : MemoryOutcome) (anchors : List MemoryAnchor) (memories : List MemoryRecord)
    (events : List MemoryOutcomeEvent) : MemoryAttempt :=
  match getMemory memories memoryId with
  | none => .rejected
  | some persisted =>
    if persisted.deleted then .rejected
    else
      let storedBase := stripMaterializedOutcomes (ensureOutcomeGeneration fresh persisted)
      let generation := storedBase.outcomeGeneration?.getD []
      match validateOutcomeEventForMemory host config.rejectDurableSecrets
          { id := eventId, memoryId := memoryId, generation := generation, outcome := outcome,
            anchors := anchors } storedBase with
      | none => .rejected
      | some nextEvent =>
        let prior := findEvent events nextEvent.id
        if !eventIdentityCompatible prior nextEvent then .rejected
        else if 1000 ≤ (events.filter fun event => event.generation = generation).length
            ∧ prior.isNone then .rejected
        else if !validateMemoryRecordRules host config.rejectDurableSecrets
            (materializeOutcomeRecord storedBase
              (if prior.isSome then events else events ++ [nextEvent])) then .rejected
        else
          ⟨(if persisted.outcomeGeneration? ≠ storedBase.outcomeGeneration? then
              [.appendMemory (stripMaterializedOutcomes storedBase)] else [])
            ++ (if prior.isSome then [] else [.appendEvent nextEvent]), true⟩

/-! ## Deleting and compacting -/

/-- `rewriteMemoryFamilyUnlocked`: the events of the memories that stay, then the memories. -/
def rewriteMemoryFamily (memories : List MemoryRecord) (events : List MemoryOutcomeEvent) :
    List MemoryWrite :=
  [.replaceEvents (events.filter fun event => memories.any fun memory =>
      memory.id = event.memoryId ∧ memory.outcomeGeneration?.getD [] = event.generation),
    .replaceMemories (memories.map stripMaterializedOutcomes)]

/-- The tombstone of `delete`. -/
def deleteTombstone (now : JsString) (reason : Option JsString) (existing : MemoryRecord) :
    MemoryRecord :=
  let metadata := OrderedMap.set existing.metadata (js "deleted") (.bool true)
  { existing with
    updatedAt := now
    metadata :=
      match reason with
      | some reason => OrderedMap.set metadata (js "deleteReason") (.str reason)
      | none => OrderedMap.erase metadata (js "deleteReason") }

/-- `delete`. -/
def deleteMemory (config : MemoryConfig) (now id : JsString) (reason : Option JsString)
    (memories : List MemoryRecord) (events : List MemoryOutcomeEvent) : MemoryAttempt :=
  match getMemory memories id with
  | none => ⟨[], true⟩
  | some existing =>
    if config.hardDelete then
      ⟨rewriteMemoryFamily (memories.filter fun memory => memory.id ≠ id) events, true⟩
    else
      ⟨[.appendMemory (stripMaterializedOutcomes (deleteTombstone now reason existing))], true⟩

def shouldCompactMemory (now : Int) (memory : MemoryRecord) : Bool :=
  memory.deleted || memory.superseded || (memory.kind == .scratch && isExpired host memory now)

/-- `compact`. -/
def compactMemories (memories : List MemoryRecord) (events : List MemoryOutcomeEvent) :
    MemoryAttempt :=
  ⟨rewriteMemoryFamily memories events, true⟩

def compactMaintenance (now : Int) (dryRun : Bool) (memories : List MemoryRecord)
    (events : List MemoryOutcomeEvent) : MemoryAttempt :=
  if dryRun then ⟨[], true⟩
  else
    ⟨rewriteMemoryFamily (memories.filter fun memory => !shouldCompactMemory host now memory)
      events, true⟩

end Provider

end OpencodeSwarm
